import CoLinux.Lib.NumberText
import Mathlib.Algebra.Ring.Int.Defs
import Mathlib.Algebra.Ring.Nat

/-!
# Port redirections (`user/slirp/co_main.c`)

The argument of `-r` is a list of redirections such as `tcp:8080:80:2`. `parse_redir_param` goes
through it with `strtol`, and asks for the ports of each entry before it looks at the next.
-/

namespace CoLinux

open Lib

/-- `PARM_SLIRP_REDIR_TCP` and `PARM_SLIRP_REDIR_UDP`. -/
inductive RedirProtocol
  | tcp
  | udp
  deriving DecidableEq, Repr

/-- A call of `slirp_redir`; the address of the guest is always the same. -/
structure RedirCall where
  iProto : RedirProtocol
  hostPort : Int
  clientPort : Int
  deriving DecidableEq

/-- The variables of one turn. -/
structure RedirEntry where
  iProto : RedirProtocol
  iHostPort : Int
  iClientPort : Int
  iPortCount : Int
  deriving DecidableEq

/-- `tolower` of a byte. -/
def toLowerByte (c : UInt8) : UInt8 := if 65 ≤ c ∧ c ≤ 90 then c + 32 else c

def RedirProtocol.name : RedirProtocol → List UInt8
  | .tcp => [116, 99, 112]
  | .udp => [117, 100, 112]

/-- `strncasecmp(p, name, 3) == 0`. -/
def sameName (p : List UInt8) (proto : RedirProtocol) : Bool :=
  (p.take 3).map toLowerByte = proto.name

/-- `strtol(p, &p, 10)`, with a `long` of 32 bits. -/
def strtolTen (p : List UInt8) : Int × List UInt8 := strtol UInt8.toNat (2 ^ 31) 10 p

/-- `iHostPort + i` in an `int`. -/
def intSum (a : Int) (i : Nat) : Int := (a + i).bmod (2 ^ 32)

def redirProtocol (p : List UInt8) : Option RedirProtocol :=
  if sameName p .tcp then some .tcp else if sameName p .udp then some .udp else none

/-- The third number, which is optional. -/
def redirCount (p : List UInt8) : Int × List UInt8 :=
  match p with
  | 58 :: p => strtolTen p
  | p => (1, p)

/-- The ports, and what follows them. -/
def redirPorts (iProto : RedirProtocol) (p : List UInt8) : Option (RedirEntry × List UInt8) :=
  match p with
  | 58 :: p =>
    let host := strtolTen p
    match host.2 with
    | 58 :: p =>
      let client := strtolTen p
      let count := redirCount client.2
      if count.1 ≤ 0 then none else some (⟨iProto, host.1, client.1, count.1⟩, count.2)
    | _ => none
  | _ => none

/-- One turn of the loop, up to the calls. -/
def redirEntry (p : List UInt8) : Option (RedirEntry × List UInt8) :=
  if p.length < 7 then none
  else
    match redirProtocol p with
    | none => none
    | some iProto => redirPorts iProto (p.drop 3)

/-- The calls of one turn. -/
def RedirEntry.calls (e : RedirEntry) : List RedirCall :=
  (List.range e.iPortCount.toNat).map fun i =>
    ⟨e.iProto, intSum e.iHostPort i, intSum e.iClientPort i⟩

theorem strtolTen_rest_le (p : List UInt8) : (strtolTen p).2.length ≤ p.length := by
  unfold strtolTen strtol
  cases h : scanNumber UInt8.toNat 10 p with
  | none => exact Nat.le_refl _
  | some n => exact Nat.le_of_lt (scanNumber_rest_lt h)

theorem redirCount_rest_le (p : List UInt8) : (redirCount p).2.length ≤ p.length := by
  unfold redirCount
  split
  · exact Nat.le_succ_of_le (strtolTen_rest_le _)
  · exact Nat.le_refl _

theorem redirPorts_rest_le {iProto : RedirProtocol} {p rest : List UInt8} {e : RedirEntry}
    (h : redirPorts iProto p = some (e, rest)) : rest.length ≤ p.length := by
  unfold redirPorts at h
  split at h
  · rename_i p
    dsimp only at h
    split at h
    · rename_i q after
      split at h
      · cases h
      · obtain rfl : _ = rest := congrArg Prod.snd (Option.some.inj h)
        have first := strtolTen_rest_le p
        rw [after, List.length_cons] at first
        have second := Nat.le_trans (redirCount_rest_le _) (strtolTen_rest_le q)
        rw [List.length_cons]
        exact Nat.le_succ_of_le (Nat.le_trans second (Nat.le_of_succ_le first))
    · cases h
  · cases h

/-- What follows an entry is shorter. -/
theorem redirEntry_rest_lt {p rest : List UInt8} {e : RedirEntry}
    (h : redirEntry p = some (e, rest)) : rest.length < p.length := by
  unfold redirEntry at h
  split at h
  · cases h
  · split at h
    · cases h
    · have := redirPorts_rest_le h
      rw [List.length_drop] at this
      omega

/-- `parse_redir_param`: whether it returns OK, and its calls of `slirp_redir`, whose answers are
only printed. -/
def parseRedirParam (p : List UInt8) : Bool × List RedirCall :=
  match _h : redirEntry p with
  | none => (false, [])
  | some (e, 47 :: next) =>
    let later := parseRedirParam next
    (later.1, e.calls ++ later.2)
  | some (e, _) => (true, e.calls)
termination_by p.length
decreasing_by exact Nat.lt_of_succ_lt (redirEntry_rest_lt _h)

end CoLinux
