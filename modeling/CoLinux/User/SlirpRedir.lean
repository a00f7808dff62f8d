import CoLinux.User.Slirp
import Mathlib.Data.List.Basic

/-!
# Which lists of redirections are taken

A redirection as the parser takes it has numbers that `strtol` accepts, and the list may be followed
by any text. `LooseList` says so without the parser; a string is read loosely in one way at most.
The parser does what its syntax says where what it takes is written strictly.
-/

namespace CoLinux

open Lib

/-! ## Redirections as they are written -/

structure RedirText where
  letters : List UInt8
  iProto : RedirProtocol
  host : NumberText UInt8
  client : NumberText UInt8
  count : Option (NumberText UInt8)

namespace RedirText

def countText : Option (NumberText UInt8) → List UInt8
  | none => []
  | some n => 58 :: n.text

def countValue : Option (NumberText UInt8) → Int
  | none => 1
  | some n => n.value UInt8.toNat

def text (e : RedirText) : List UInt8 :=
  e.letters ++ 58 :: (e.host.text ++ 58 :: (e.client.text ++ countText e.count))

def numbers (e : RedirText) : List (NumberText UInt8) := e.host :: e.client :: e.count.toList

/-- The protocol is written in letters of any case, and the numbers are numbers. -/
structure Written (e : RedirText) : Prop where
  letters : e.letters.map toLowerByte = e.iProto.name
  numbers : ∀ n ∈ e.numbers, n.Written UInt8.toNat
  count : 0 < countValue e.count

/-- The numbers are digits. -/
def Plain (e : RedirText) : Prop := ∀ n ∈ e.numbers, n.Plain

/-- All ports from `first` on are ports. -/
def PortsFrom (first count : Int) : Prop := 1 ≤ first ∧ first + count - 1 ≤ 65535

def InRange (e : RedirText) : Prop :=
  PortsFrom (e.host.value UInt8.toNat) (countValue e.count) ∧
    PortsFrom (e.client.value UInt8.toNat) (countValue e.count)

/-- `slirp_redir` for each pair of ports. -/
def calls (e : RedirText) : List RedirCall :=
  (List.range (countValue e.count).toNat).map fun (i : Nat) =>
    ⟨e.iProto, e.host.value UInt8.toNat + i, e.client.value UInt8.toNat + i⟩

/-- The optional number ends before `rest`. -/
def CountEnds (rest : List UInt8) : Option (NumberText UInt8) → Prop
  | none => ∀ c ∈ rest.head?, c ≠ 58
  | some n => n.EndsBefore UInt8.toNat rest

/-- A redirection is taken up to `rest`. -/
structure TakenTo (e : RedirText) (rest : List UInt8) : Prop where
  written : e.Written
  clientEnds : e.client.EndsBefore UInt8.toNat (countText e.count ++ rest)
  countEnds : CountEnds rest e.count
  length : 7 ≤ (e.text ++ rest).length

/-- What the parser makes of it. -/
def entry (e : RedirText) : RedirEntry where
  iProto := e.iProto
  iHostPort := nearestLong (2 ^ 31) (e.host.value UInt8.toNat)
  iClientPort := nearestLong (2 ^ 31) (e.client.value UInt8.toNat)
  iPortCount := nearestLong (2 ^ 31) (countValue e.count)

end RedirText

/-- The syntax: redirections with a slash between them. -/
structure WrittenAs (p : List UInt8) (es : List RedirText) : Prop where
  nonempty : es ≠ []
  written : ∀ e ∈ es, e.Written
  plain : ∀ e ∈ es, e.Plain
  inRange : ∀ e ∈ es, e.InRange
  text : p = [47].intercalate (es.map RedirText.text)

/-- Redirections as they are taken, up to `tail`. -/
inductive LooseList : List UInt8 → List RedirText → List UInt8 → Prop
  | last {e : RedirText} {tail : List UInt8} (taken : e.TakenTo tail)
      (ends : ∀ c ∈ tail.head?, c ≠ 47) : LooseList (e.text ++ tail) [e] tail
  | more {e : RedirText} {p tail : List UInt8} {es : List RedirText} (taken : e.TakenTo (47 :: p))
      (later : LooseList p es tail) : LooseList (e.text ++ 47 :: p) (e :: es) tail

/-- `parse_redir_param` accepts what is written by the syntax and nothing else, and asks for the
ports. -/
structure RedirExact (p : List UInt8) : Prop where
  accepted : (parseRedirParam p).1 = true ↔ ∃ es, WrittenAs p es
  calls : ∀ es, WrittenAs p es → (parseRedirParam p).2 = es.flatMap RedirText.calls

/-! ## One redirection -/

theorem strtolTen_text {n : NumberText UInt8} {rest : List UInt8} (written : n.Written UInt8.toNat)
    (ends : n.EndsBefore UInt8.toNat rest) :
    strtolTen (n.text ++ rest) = (nearestLong (2 ^ 31) (n.value UInt8.toNat), rest) := by
  rw [strtolTen, strtol_readNumber (by decide), readNumber_text written ends]

/-- Every text is read by `strtol` as some number. -/
theorem exists_strtolTen (p : List UInt8) : ∃ (n : NumberText UInt8) (rest : List UInt8),
    n.Written UInt8.toNat ∧ n.EndsBefore UInt8.toNat rest ∧ p = n.text ++ rest := by
  obtain ⟨written, ends, text⟩ := @readNumber_written _ UInt8.toNat p
  exact ⟨_, _, written, ends, text.symm⟩

theorem stops_colon : Stops UInt8.toNat 58 :=
  ⟨by decide, by decide, by decide, by decide⟩

theorem stops_slash : Stops UInt8.toNat 47 :=
  ⟨by decide, by decide, by decide, by decide⟩

theorem nearestLong_pos_iff {v : Int} : nearestLong (2 ^ 31) v ≤ 0 ↔ v ≤ 0 := by
  unfold nearestLong
  omega

theorem endsBefore_colon (n : NumberText UInt8) (rest : List UInt8) :
    n.EndsBefore UInt8.toNat (58 :: rest) :=
  n.endsBefore_stop fun _ mem => Option.some.inj mem ▸ stops_colon

theorem redirCount_none {p : List UInt8} (other : ∀ c ∈ p.head?, c ≠ 58) :
    redirCount p = (1, p) := by
  unfold redirCount
  split
  · exact absurd rfl (other 58 rfl)
  · rfl

theorem redirCount_text {count : Option (NumberText UInt8)} {rest : List UInt8}
    (written : ∀ n ∈ count, n.Written UInt8.toNat) (ends : RedirText.CountEnds rest count) :
    redirCount (RedirText.countText count ++ rest) =
      (nearestLong (2 ^ 31) (RedirText.countValue count), rest) := by
  cases count with
  | some n => exact strtolTen_text (written n rfl) ends
  | none => exact redirCount_none ends

theorem exists_redirCount (p : List UInt8) :
    ∃ (count : Option (NumberText UInt8)) (rest : List UInt8),
      (∀ n ∈ count, n.Written UInt8.toNat) ∧ RedirText.CountEnds rest count ∧
        p = RedirText.countText count ++ rest := by
  by_cases colon : p.head? = some 58
  · obtain ⟨p, rfl⟩ : ∃ q, p = 58 :: q := by
      cases p with
      | nil => cases colon
      | cons c p => exact ⟨p, congrArg (· :: p) (Option.some.inj colon)⟩
    obtain ⟨n, rest, written, ends, rfl⟩ := exists_strtolTen p
    exact ⟨some n, rest, fun m mem => Option.some.inj mem ▸ written, ends, rfl⟩
  · exact ⟨none, p, fun _ mem => absurd mem (Option.not_mem_none _),
      fun c mem same => colon (same ▸ mem), rfl⟩

theorem redirPorts_colon {iProto : RedirProtocol} {p q : List UInt8}
    (h : (strtolTen p).2 = 58 :: q) :
    redirPorts iProto (58 :: p) = if (redirCount (strtolTen q).2).1 ≤ 0 then none
      else some (⟨iProto, (strtolTen p).1, (strtolTen q).1, (redirCount (strtolTen q).2).1⟩,
        (redirCount (strtolTen q).2).2) := by
  unfold redirPorts
  split
  · rename_i same
    obtain rfl := (List.cons.inj same).2
    dsimp only
    split
    · rename_i same
      obtain rfl := (List.cons.inj (h.symm.trans same)).2
      rfl
    · rename_i other
      exact absurd h (other q)
  · rename_i other
    exact absurd rfl (other p)

theorem redirPorts_text {e : RedirText} {rest : List UInt8} (taken : e.TakenTo rest) :
    redirPorts e.iProto (58 :: (e.host.text ++ 58 :: (e.client.text ++
      (RedirText.countText e.count ++ rest)))) = some (e.entry, rest) := by
  have host := strtolTen_text (taken.written.numbers e.host List.mem_cons_self)
    (endsBefore_colon e.host (e.client.text ++ (RedirText.countText e.count ++ rest)))
  have client := strtolTen_text
    (taken.written.numbers e.client (List.mem_cons_of_mem _ List.mem_cons_self)) taken.clientEnds
  have count := redirCount_text (fun n mem => taken.written.numbers n
    (List.mem_cons_of_mem _ (List.mem_cons_of_mem _ (Option.mem_toList.mpr mem)))) taken.countEnds
  have positive : ¬ nearestLong (2 ^ 31) (RedirText.countValue e.count) ≤ 0 :=
    fun le => absurd taken.written.count (Int.not_lt.mpr (nearestLong_pos_iff.mp le))
  rw [redirPorts_colon (congrArg Prod.snd host), host, client, count, if_neg positive]
  rfl

theorem length_name (iProto : RedirProtocol) : iProto.name.length = 3 := by
  cases iProto <;> rfl

theorem RedirText.Written.length_letters {e : RedirText} (h : e.Written) :
    e.letters.length = 3 := by
  rw [← length_name e.iProto, ← h.letters, List.length_map]

theorem RedirText.text_append (e : RedirText) (rest : List UInt8) :
    e.text ++ rest = e.letters ++ 58 :: (e.host.text ++ 58 :: (e.client.text ++
      (countText e.count ++ rest))) := by
  simp only [text, List.append_assoc, List.cons_append]

theorem redirProtocol_letters {letters rest : List UInt8} {iProto : RedirProtocol}
    (h : letters.map toLowerByte = iProto.name) :
    redirProtocol (letters ++ rest) = some iProto := by
  have length : letters.length = 3 := by rw [← length_name iProto, ← h, List.length_map]
  unfold redirProtocol sameName
  rw [List.take_left' length, h]
  cases iProto <;> rfl

/-- What is written as a redirection is taken as one. -/
theorem redirEntry_text {e : RedirText} {rest : List UInt8} (taken : e.TakenTo rest) :
    redirEntry (e.text ++ rest) = some (e.entry, rest) := by
  rw [redirEntry, if_neg (Nat.not_lt.mpr taken.length), e.text_append,
    redirProtocol_letters taken.written.letters]
  dsimp only
  rw [List.drop_left' taken.written.length_letters]
  exact redirPorts_text taken

theorem exists_letters {p : List UInt8} {iProto : RedirProtocol}
    (h : redirProtocol p = some iProto) : (p.take 3).map toLowerByte = iProto.name := by
  unfold redirProtocol at h
  split at h
  · obtain rfl := Option.some.inj h
    exact of_decide_eq_true ‹_›
  · split at h
    · obtain rfl := Option.some.inj h
      exact of_decide_eq_true ‹_›
    · cases h

theorem exists_ports {iProto : RedirProtocol} {p rest : List UInt8} {r : RedirEntry}
    (h : redirPorts iProto p = some (r, rest)) :
    ∃ (host client : NumberText UInt8) (count : Option (NumberText UInt8)),
      host.Written UInt8.toNat ∧ client.Written UInt8.toNat ∧
        (∀ n ∈ count, n.Written UInt8.toNat) ∧ 0 < RedirText.countValue count ∧
          client.EndsBefore UInt8.toNat (RedirText.countText count ++ rest) ∧
            RedirText.CountEnds rest count ∧
              p = 58 :: (host.text ++
                58 :: (client.text ++ (RedirText.countText count ++ rest))) := by
  unfold redirPorts at h
  split at h
  · rename_i p
    obtain ⟨host, after, written, ends, rfl⟩ := exists_strtolTen p
    rw [strtolTen_text written ends] at h
    dsimp only at h
    split at h
    · rename_i q
      obtain ⟨client, p, written', ends', rfl⟩ := exists_strtolTen q
      rw [strtolTen_text written' ends'] at h
      dsimp only at h
      obtain ⟨count, later, written'', ends'', rfl⟩ := exists_redirCount p
      rw [redirCount_text written'' ends''] at h
      split at h
      · cases h
      · rename_i positive
        obtain rfl : later = rest := congrArg Prod.snd (Option.some.inj h)
        exact ⟨host, client, count, written, written', written'',
          Int.not_le.mp fun le => positive (nearestLong_pos_iff.mpr le), ends', ends'', rfl⟩
    · cases h
  · cases h

/-- What is taken as a redirection is written as one. -/
theorem exists_text {p rest : List UInt8} {r : RedirEntry} (h : redirEntry p = some (r, rest)) :
    ∃ e : RedirText, e.TakenTo rest ∧ p = e.text ++ rest := by
  have long : 7 ≤ p.length := by
    by_contra short
    rw [redirEntry, if_pos (Nat.lt_of_not_le short)] at h
    cases h
  rw [redirEntry, if_neg (Nat.not_lt.mpr long)] at h
  cases proto : redirProtocol p with
  | none =>
    rw [proto] at h
    cases h
  | some iProto =>
    rw [proto] at h
    obtain ⟨host, client, count, first, second, third, positive, ends, ends', later⟩ :=
      exists_ports h
    have text : p = RedirText.text ⟨p.take 3, iProto, host, client, count⟩ ++ rest := by
      rw [RedirText.text_append]
      dsimp only
      rw [← later, List.take_append_drop]
    refine ⟨⟨p.take 3, iProto, host, client, count⟩,
      ⟨⟨exists_letters proto, ?_, positive⟩, ends, ends', text ▸ long⟩, text⟩
    intro n mem
    rcases List.mem_cons.mp mem with rfl | mem
    · exact first
    · rcases List.mem_cons.mp mem with rfl | mem
      · exact second
      · exact third n (Option.mem_toList.mp mem)

theorem count_unique {count count' : Option (NumberText UInt8)} {rest rest' : List UInt8}
    (written : ∀ n ∈ count, n.Written UInt8.toNat) (written' : ∀ n ∈ count', n.Written UInt8.toNat)
    (ends : RedirText.CountEnds rest count) (ends' : RedirText.CountEnds rest' count')
    (same : RedirText.countText count ++ rest = RedirText.countText count' ++ rest') :
    count = count' ∧ rest = rest' := by
  cases count with
  | none =>
    cases count' with
    | none => exact ⟨rfl, same⟩
    | some n =>
      have colon : rest = 58 :: (n.text ++ rest') := same
      exact absurd rfl (ends 58 (colon ▸ rfl))
  | some n =>
    cases count' with
    | none =>
      have colon : rest' = 58 :: (n.text ++ rest) := same.symm
      exact absurd rfl (ends' 58 (colon ▸ rfl))
    | some n' =>
      have digits : n.text ++ rest = n'.text ++ rest' := (List.cons.inj same).2
      have read := congrArg (readNumber UInt8.toNat) digits
      rw [readNumber_text (written n rfl) ends, readNumber_text (written' n' rfl) ends'] at read
      exact ⟨congrArg some (Prod.ext_iff.mp read).1, (Prod.ext_iff.mp read).2⟩

theorem RedirText.Written.host {e : RedirText} (h : e.Written) : e.host.Written UInt8.toNat :=
  h.numbers e.host List.mem_cons_self

theorem RedirText.Written.client {e : RedirText} (h : e.Written) : e.client.Written UInt8.toNat :=
  h.numbers e.client (List.mem_cons_of_mem _ List.mem_cons_self)

theorem RedirText.Written.optional {e : RedirText} (h : e.Written) :
    ∀ n ∈ e.count, n.Written UInt8.toNat := fun n mem =>
  h.numbers n (List.mem_cons_of_mem _ (List.mem_cons_of_mem _ (Option.mem_toList.mpr mem)))

/-- A redirection is read in one way. -/
theorem RedirText.TakenTo.unique {e e' : RedirText} {rest rest' : List UInt8} (h : e.TakenTo rest)
    (h' : e'.TakenTo rest') (same : e.text ++ rest = e'.text ++ rest') : e = e' ∧ rest = rest' := by
  rw [e.text_append, e'.text_append] at same
  obtain ⟨letters, ports⟩ := List.append_inj same
    (h.written.length_letters.trans h'.written.length_letters.symm)
  have read := congrArg (readNumber UInt8.toNat) (List.cons.inj ports).2
  rw [readNumber_text h.written.host (endsBefore_colon ..),
    readNumber_text h'.written.host (endsBefore_colon ..)] at read
  obtain ⟨host, later⟩ := Prod.ext_iff.mp read
  have read' := congrArg (readNumber UInt8.toNat) (List.cons.inj later).2
  rw [readNumber_text h.written.client h.clientEnds,
    readNumber_text h'.written.client h'.clientEnds] at read'
  obtain ⟨client, later'⟩ := Prod.ext_iff.mp read'
  obtain ⟨count, rest⟩ := count_unique h.written.optional h'.written.optional h.countEnds
    h'.countEnds later'
  have proto : e.iProto.name = e'.iProto.name := by
    rw [← h.written.letters, ← h'.written.letters, letters]
  have iProto : e.iProto = e'.iProto := by
    revert proto
    cases e.iProto <;> cases e'.iProto <;> decide
  refine ⟨?_, rest⟩
  cases e
  cases e'
  dsimp only at letters host client count iProto
  rw [letters, host, client, count, iProto]

/-! ## Lists of redirections -/

theorem parseRedirParam_none {p : List UInt8} (h : redirEntry p = none) :
    parseRedirParam p = (false, []) := by
  rw [parseRedirParam]
  split
  · rfl
  · rename_i same
    cases h.symm.trans same
  · rename_i same
    cases h.symm.trans same

theorem parseRedirParam_more {p next : List UInt8} {r : RedirEntry}
    (h : redirEntry p = some (r, 47 :: next)) :
    parseRedirParam p =
      ((parseRedirParam next).1, r.calls ++ (parseRedirParam next).2) := by
  rw [parseRedirParam]
  split
  · rename_i same
    cases h.symm.trans same
  · rename_i same
    cases h.symm.trans same
    rfl
  · rename_i other same
    obtain ⟨-, rest⟩ := Prod.ext_iff.mp (Option.some.inj (h.symm.trans same))
    exact absurd rest.symm (other next)

theorem parseRedirParam_last {p rest : List UInt8} {r : RedirEntry}
    (h : redirEntry p = some (r, rest)) (ends : ∀ c ∈ rest.head?, c ≠ 47) :
    parseRedirParam p = (true, r.calls) := by
  rw [parseRedirParam]
  split
  · rename_i same
    cases h.symm.trans same
  · rename_i same
    cases h.symm.trans same
    exact absurd rfl (ends 47 rfl)
  · rename_i same
    cases h.symm.trans same
    rfl

/-- What the parser does with a list that is written loosely. -/
theorem parseRedirParam_loose {p tail : List UInt8} {es : List RedirText}
    (h : LooseList p es tail) :
    parseRedirParam p = (true, es.flatMap fun e => e.entry.calls) := by
  induction h with
  | last taken ends =>
    rw [parseRedirParam_last (redirEntry_text taken) ends, List.flatMap_singleton]
  | more taken later ih =>
    rw [parseRedirParam_more (redirEntry_text taken), ih, List.flatMap_cons]

/-- What the parser accepts is written loosely. -/
theorem exists_looseList (p : List UInt8) (ok : (parseRedirParam p).1 = true) :
    ∃ es tail, LooseList p es tail := by
  induction p using parseRedirParam.induct with
  | case1 p none =>
    rw [parseRedirParam_none none] at ok
    cases ok
  | case2 p r next found ih =>
    rw [parseRedirParam_more found] at ok
    obtain ⟨es, tail, later⟩ := ih ok
    obtain ⟨e, taken, rfl⟩ := exists_text found
    exact ⟨e :: es, tail, .more taken later⟩
  | case3 p r rest other found =>
    obtain ⟨e, taken, rfl⟩ := exists_text found
    refine ⟨[e], rest, .last taken fun c mem same => ?_⟩
    cases rest with
    | nil => cases mem
    | cons d rest =>
      obtain rfl : d = c := Option.some.inj mem
      exact other rest (congrArg (· :: rest) same)

/-- A list is read in one way. -/
theorem LooseList.unique {p tail tail' : List UInt8} {es es' : List RedirText}
    (h : LooseList p es tail) (h' : LooseList p es' tail') : es = es' ∧ tail = tail' := by
  induction h generalizing es' tail' with
  | @last e tail taken ends =>
    generalize same : e.text ++ tail = p at h'
    cases h' with
    | last taken' ends' =>
      obtain ⟨rfl, rfl⟩ := taken.unique taken' same
      exact ⟨rfl, rfl⟩
    | more taken' later' =>
      obtain ⟨-, rfl⟩ := taken.unique taken' same
      exact absurd rfl (ends 47 rfl)
  | @more e next tail es taken later ih =>
    generalize same : e.text ++ 47 :: next = p at h'
    cases h' with
    | last taken' ends' =>
      obtain ⟨-, rfl⟩ := taken.unique taken' same
      exact absurd rfl (ends' 47 rfl)
    | more taken' later' =>
      obtain ⟨rfl, rest⟩ := taken.unique taken' same
      obtain rfl := (List.cons.inj rest).2
      obtain ⟨rfl, rfl⟩ := ih later'
      exact ⟨rfl, rfl⟩

/-! ## What the syntax says -/

theorem plain_length {n : NumberText UInt8} (h : n.Plain) : 1 ≤ n.text.length := by
  rw [h.2]
  exact List.length_pos_iff.mpr h.1

theorem RedirText.Plain.host {e : RedirText} (h : e.Plain) : e.host.Plain :=
  h e.host List.mem_cons_self

theorem RedirText.Plain.client {e : RedirText} (h : e.Plain) : e.client.Plain :=
  h e.client (List.mem_cons_of_mem _ List.mem_cons_self)

/-- A redirection with a slash or nothing behind it is taken as it is written. -/
theorem RedirText.Written.takenTo {e : RedirText} (h : e.Written) (plain : e.Plain)
    {rest : List UInt8} (stop : ∀ c ∈ rest.head?, c = 47) : e.TakenTo rest := by
  have stops : ∀ c ∈ rest.head?, Stops UInt8.toNat c := fun c mem => stop c mem ▸ stops_slash
  refine ⟨h, ?_, ?_, ?_⟩
  · apply NumberText.endsBefore_stop
    cases e.count with
    | none => exact stops
    | some n => exact fun c mem => Option.some.inj mem ▸ stops_colon
  · cases e.count with
    | none => exact fun c mem same => absurd ((stop c mem).symm.trans same) (by decide)
    | some n => exact n.endsBefore_stop stops
  · have host := plain_length plain.host
    have client := plain_length plain.client
    rw [e.text_append]
    simp only [List.length_append, List.length_cons, h.length_letters]
    omega

theorem WrittenAs.looseList {p : List UInt8} {es : List RedirText} (h : WrittenAs p es) :
    LooseList p es [] := by
  obtain ⟨nonempty, written, plain, -, rfl⟩ := h
  induction es with
  | nil => exact absurd rfl nonempty
  | cons e es ih =>
    have here := written e List.mem_cons_self
    have here' := plain e List.mem_cons_self
    cases es with
    | nil =>
      have last : LooseList (e.text ++ []) [e] [] :=
        .last (here.takenTo here' fun _ mem => absurd mem (Option.not_mem_none _))
          fun _ mem => absurd mem (Option.not_mem_none _)
      rw [List.append_nil] at last
      rwa [List.map_singleton, List.intercalate_singleton]
    | cons e' es =>
      have later := ih (List.cons_ne_nil e' es)
        (fun e mem => written e (List.mem_cons_of_mem _ mem))
        (fun e mem => plain e (List.mem_cons_of_mem _ mem))
      rw [List.map_cons, List.map_cons, List.intercalate_cons_cons, List.append_assoc]
      exact .more (here.takenTo here' fun c mem => (Option.some.inj mem).symm) later

/-- A list that is taken as a whole and strictly is written by the syntax. -/
theorem LooseList.writtenAs {p : List UInt8} {es : List RedirText} (h : LooseList p es [])
    (strict : ∀ e ∈ es, e.Plain ∧ e.InRange) : WrittenAs p es := by
  generalize nil : ([] : List UInt8) = tail at h
  induction h with
  | @last e tail taken ends =>
    subst nil
    refine ⟨List.cons_ne_nil _ _, ?_, ?_, ?_, ?_⟩
    · exact List.forall_mem_singleton.mpr taken.written
    · exact fun e mem => (strict e mem).1
    · exact fun e mem => (strict e mem).2
    · rw [List.map_singleton, List.intercalate_singleton, List.append_nil]
  | @more e next tail es taken later ih =>
    have rest := ih (fun e mem => strict e (List.mem_cons_of_mem _ mem)) nil
    refine ⟨List.cons_ne_nil _ _, ?_, ?_, ?_, ?_⟩
    · exact List.forall_mem_cons.mpr ⟨taken.written, rest.written⟩
    · exact fun e mem => (strict e mem).1
    · exact fun e mem => (strict e mem).2
    · rw [List.map_cons, List.intercalate_cons_of_ne_nil (by simpa using rest.nonempty),
        ← rest.text, List.append_assoc, List.singleton_append]

/-- Ports are asked for as they are written. -/
theorem RedirText.entry_calls {e : RedirText} (written : e.Written) (range : e.InRange) :
    e.entry.calls = e.calls := by
  obtain ⟨⟨host, hosts⟩, client, clients⟩ := range
  have count := written.count
  have near : ∀ v : Int, 0 ≤ v → v ≤ 65535 → nearestLong (2 ^ 31) v = v := by
    intro v low high
    unfold nearestLong
    omega
  unfold RedirEntry.calls calls entry
  dsimp only
  rw [near _ (by omega) (by omega), near _ (by omega) (by omega), near _ (by omega) (by omega)]
  apply List.map_congr_left
  intro i mem
  have less := List.mem_range.mp mem
  have exact' : ∀ v : Int, 1 ≤ v → v + countValue e.count - 1 ≤ 65535 → intSum v i = v + i := by
    intro v low high
    rw [intSum, Int.bmod_def]
    omega
  rw [exact' _ host hosts, exact' _ client clients]

/-! ## Which strings are parsed as they should be -/

/-- `parse_redir_param` does what its syntax says on the strings whose loose reading, if there is
one, takes the whole string, with numbers that are digits and with ports that are ports. -/
theorem redirExact_iff (p : List UInt8) :
    RedirExact p ↔ ∀ es tail, LooseList p es tail → tail = [] ∧ ∀ e ∈ es, e.Plain ∧ e.InRange := by
  constructor
  · intro exact' es tail loose
    have ok : (parseRedirParam p).1 = true := congrArg Prod.fst (parseRedirParam_loose loose)
    obtain ⟨es', written⟩ := exact'.accepted.mp ok
    obtain ⟨rfl, rfl⟩ := loose.unique written.looseList
    exact ⟨rfl, fun e mem => ⟨written.plain e mem, written.inRange e mem⟩⟩
  · intro strict
    refine ⟨⟨fun ok => ?_, ?_⟩, fun es written => ?_⟩
    · obtain ⟨es, tail, loose⟩ := exists_looseList p ok
      obtain ⟨rfl, strict⟩ := strict es tail loose
      exact ⟨es, loose.writtenAs strict⟩
    · rintro ⟨es, written⟩
      exact congrArg Prod.fst (parseRedirParam_loose written.looseList)
    · rw [congrArg Prod.snd (parseRedirParam_loose written.looseList)]
      apply List.flatMap_congr
      intro e mem
      exact RedirText.entry_calls (written.written e mem) (written.inRange e mem)

/-- `80`. -/
def eighty : NumberText UInt8 := ⟨[], none, [56, 48]⟩

/-- `tcp:80:80`. -/
def webRedirection : RedirText := ⟨[116, 99, 112], .tcp, eighty, eighty, none⟩

theorem written_eighty : eighty.Written UInt8.toNat where
  blanks := fun _ mem => absurd mem List.not_mem_nil
  sign := fun _ mem => absurd mem (Option.not_mem_none _)
  digits := by decide +kernel
  nothing := fun empty => absurd empty (List.cons_ne_nil _ _)

/-- `tcp:80:80x` has a letter too many, and is accepted. -/
theorem redirExact_letter : ¬ RedirExact (webRedirection.text ++ [120]) := by
  intro exact'
  have letter : Stops UInt8.toNat 120 := ⟨by decide, by decide, by decide, by decide⟩
  have numbers : ∀ n ∈ webRedirection.numbers, n.Written UInt8.toNat := by
    intro n mem
    have same : n = eighty := by simpa [webRedirection, RedirText.numbers] using mem
    exact same ▸ written_eighty
  have taken : webRedirection.TakenTo [120] := {
    written := ⟨by decide, numbers, by decide⟩
    clientEnds := NumberText.endsBefore_stop _ fun _ mem => Option.some.inj mem ▸ letter
    countEnds := fun c mem => by
      obtain rfl : 120 = c := Option.some.inj mem
      decide
    length := by decide +kernel }
  have loose : LooseList (webRedirection.text ++ [120]) [webRedirection] [120] :=
    .last taken (by decide +kernel)
  obtain ⟨es, written⟩ :=
    exact'.accepted.mp (congrArg Prod.fst (parseRedirParam_loose loose))
  exact absurd (loose.unique written.looseList).2 (List.cons_ne_nil _ _)

end CoLinux
