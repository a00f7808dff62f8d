import CoLinux.Kernel.Monitor
import CoLinux.Lib.CText
import CoLinux.Lib.Traced

/-!
# Termination reports (`co_terminate` of `kernel/monitor.c` and of the guest)

A guest that ends puts a reason, two numbers, a length and a text into the parameters of the
passage page. The monitor copies the text of a panic, and of the name of a source file the end,
which it finds by arithmetic on the length.
-/

namespace CoLinux

open Lib

/-! ## The passage page -/

/-- `CO_TERMINATE_PANIC` and `CO_TERMINATE_BUG`. -/
abbrev terminatePanic : Nat := 3
abbrev terminateBug : Nat := 9

/-- `CO_OPERATION_TERMINATE`. -/
abbrev coOperationTerminate : Nat := 3

/-- `&co_passage_page->operation`: behind the code and the states of the host and the guest. -/
def operationAddress (page : Nat) : Nat := page + 0x280 + 2 * 0x7c

/-- `&co_passage_page->params[i]`. -/
def paramAddress (page i : Nat) : Nat := operationAddress page + 4 + 4 * i

/-- The bytes are in the page. -/
def InPage (page : Nat) (r : Nat × Nat) : Prop :=
  page ≤ r.1 ∧ r.1 + r.2 ≤ page + coArchPageSize

/-! ## The monitor's side -/

/-- `sizeof(cmon->bug_info.text)`. -/
abbrev sizeofBugText : Nat := 128

/-- `co_monitor_linux_bug_invocation_t`. -/
structure BugInfo where
  line : Nat
  code : Nat
  text : ByteMem

/-- What `co_terminate` writes of the monitor. -/
structure TerminatedMonitor where
  timerActive : Bool
  terminationReason : Nat
  bugInfo : BugInfo
  state : MonitorState

/-- A computation that reads bytes at addresses. -/
abbrev PageReading := Traced (Nat × Nat)

variable (m : ByteMem) (page : Nat)

def readParam (i : Nat) : PageReading Nat :=
  .read (paramAddress page i, 4) (m.readWord (paramAddress page i))

/-- `co_strlen`; the number bounds its turns. -/
def coStrlen : Nat → Nat → PageReading Nat
  | 0, _ => pure 0
  | fuel + 1, s => do
    let c ← Traced.read (s, 1) (m s)
    if c = 0 then pure 0
    else do
      let n ← coStrlen fuel ((s + 1) % wordSize)
      return n + 1

/-- `co_memcpy(text, str, len); text[len] = 0`. -/
def copyText (str len : Nat) (text : ByteMem) : PageReading ByteMem := do
  let bytes ← Traced.read (str, len) (m.slice str len)
  return (text.copyBytes 0 len (ByteMem.ofList bytes)).copyBytes len 1 fun _ => 0

/-- `(null)`. -/
def nullText : List UInt8 := [40, 110, 117, 108, 108, 41]

/-- What `pvsnfmt_str` prints for `%s` where there is room for `room` bytes: it takes the length of
the whole string first. -/
def pvsnfmtStr (room s : Nat) : PageReading (List UInt8) :=
  if s = 0 then pure (nullText.take room)
  else do
    let len ← coStrlen m wordSize s
    let printed := if room < len then room else len
    Traced.read (s, printed) (m.slice s printed)

/-- `co_snprintf(text, sizeof(text), "...%s", s)`. -/
def snprintfEnd (s : Nat) (text : ByteMem) : PageReading ByteMem := do
  let bytes ← pvsnfmtStr m (sizeofBugText - 3 - 1) s
  return ((text.copyBytes 0 3 fun _ => 46).copyBytes 3 bytes.length
    (ByteMem.ofList bytes)).copyBytes (3 + bytes.length) 1 fun _ => 0

/-- `str + len - sizeof(text) + 4`, in 32 bits. -/
def nameEnd (len : Nat) : Nat :=
  (paramAddress page 4 + len + wordSize - sizeofBugText + 4) % wordSize

def bugText (len : Nat) (text : ByteMem) : PageReading ByteMem :=
  if len < sizeofBugText - 1 then copyText m (paramAddress page 4) len text
  else snprintfEnd m (nameEnd page len) text

/-- What becomes of `bug_info`. -/
def reportedInfo (reason len : Nat) (info : BugInfo) : PageReading BugInfo :=
  if reason = terminatePanic then do
    let text ← copyText m (paramAddress page 4)
      (if sizeofBugText - 1 ≤ len then sizeofBugText - 1 else len) info.text
    return { info with text := text }
  else if reason = terminateBug then do
    let code ← readParam m page 1
    let line ← readParam m page 2
    let text ← bugText m page len info.text
    return { line := line, code := code, text := text }
  else pure info

/-- `co_terminate`; the monitor's loop ends when it returns false. -/
def coTerminate (c : TerminatedMonitor) : PageReading (Bool × TerminatedMonitor) := do
  let len ← readParam m page 3
  let reason ← readParam m page 0
  let info ← reportedInfo m page reason len c.bugInfo
  return (false, { timerActive := false, terminationReason := reason, bugInfo := info,
                   state := .terminated })

/-! ## The guest's side -/

/-- The parameters before the text. -/
def placeReport (reason first second len : Nat) (m : ByteMem) : ByteMem :=
  ((((m.writeWord (operationAddress page) coOperationTerminate).writeWord (paramAddress page 0)
    reason).writeWord (paramAddress page 1) first).writeWord (paramAddress page 2) second).writeWord
      (paramAddress page 3) len

/-- `co_terminate_panic`: it copies one byte more than `len`. -/
def coTerminatePanic (text : ByteMem) (len : Nat) (m : ByteMem) : ByteMem :=
  (placeReport page terminatePanic 0 0 len m).copyBytes (paramAddress page 4) (len + 1) text

/-- `co_terminate_bug`. -/
def coTerminateBug (code line : Nat) (file : CText) (m : ByteMem) : ByteMem :=
  (placeReport page terminateBug code line file.val.length m).storeText (paramAddress page 4)
    file.val

/-! ## What a report has to be -/

/-- There is a NUL in the array. -/
def NulInside (text : ByteMem) : Prop := ∃ i < sizeofBugText, text i = 0

/-- A file name as it is shown: the whole of it, or its longest end that fits behind three dots. -/
def shownName (file : List UInt8) : List UInt8 :=
  if file.length < sizeofBugText - 1 then file
  else [46, 46, 46] ++ file.drop (file.length - (sizeofBugText - 1 - 3))

/-- A text of `n` bytes and its NUL fit into the parameters. -/
def TextFits (n : Nat) : Prop := paramAddress 0 4 + n + 1 ≤ coArchPageSize

end CoLinux
