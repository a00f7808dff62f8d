import CoLinux.Common.Types
import CoLinux.Lib.ByteMem
import CoLinux.Lib.Framing

/-!
# Messages

`co_message_t` of the guest's `linux/cooperative.h` and `common/messages.h`. A message is what
its pointer points to: a header of five 32-bit words, `size` bytes of data, and whatever
follows in memory. The header and the data are a record of `coMessageFraming`.
-/

namespace CoLinux

open Lib

/-- What a `co_message_t *` points to: the bytes from the pointer on. -/
abbrev CoMessage := ByteMem

/-- `sizeof(co_message_t)`. -/
abbrev sizeofCoMessage : Nat := 20

/-- `sizeof(co_linux_message_t)`. -/
abbrev sizeofCoLinuxMessage : Nat := 12

/-- `sizeof(co_io_buffer_t)`: the word `messages_waiting`. -/
abbrev sizeofCoIoBuffer : Nat := 4

abbrev coModuleLinux : Nat := 0
abbrev coModuleConsole : Nat := 6
abbrev coModulePrintk : Nat := 7

/-- `CO_MODULES_MAX`: eight fixed modules, then 16 conet, 32 cobd, 32 cofs, 32 serial, 32 coscsi,
2 covideo and 2 coaudio units. -/
abbrev coModulesMax : Nat := 156

/-! ## `co_device_t` and `co_message_type_t` -/

abbrev coDeviceBlock : Nat := 0
abbrev coDeviceKeyboard : Nat := 2
abbrev coDeviceNetwork : Nat := 3
abbrev coDevicePower : Nat := 5
abbrev coDeviceSerial : Nat := 6
abbrev coDeviceMouse : Nat := 8
abbrev coDeviceScsi : Nat := 9
abbrev coDeviceVideo : Nat := 10
abbrev coDevicesTotal : Nat := 13

abbrev coMessageTypeString : Nat := 0

namespace CoMessage

/-- `message->from`. -/
def fromModule (m : CoMessage) : Nat := m.readWord 0

/-- `message->to`. -/
def toModule (m : CoMessage) : Nat := m.readWord 4

/-- `message->type`. -/
def type (m : CoMessage) : Nat := m.readWord 12

/-- `message->size`. -/
def size (m : CoMessage) : Nat := m.readWord 16

/-- `((co_linux_message_t *)message->data)->device`. -/
def device (m : CoMessage) : Nat := m.readWord 20

/-- `((co_linux_message_t *)message->data)->unit`. -/
def unit (m : CoMessage) : Nat := m.readWord 24

/-- `((co_linux_message_t *)message->data)->size`. -/
def linuxSize (m : CoMessage) : Nat := m.readWord 28

/-- `message->size + sizeof(*message)`, an `unsigned long`. -/
def totalSize (m : CoMessage) : Nat := (m.size + sizeofCoMessage) % wordSize

/-- The header and the data. -/
def bytes (m : CoMessage) : List UInt8 := m.slice 0 (sizeofCoMessage + m.size)

/-- The object at the pointer, header and data, fits the 32-bit address space. -/
def Fits (m : CoMessage) : Prop := sizeofCoMessage + m.size < wordSize

instance (m : CoMessage) : Decidable m.Fits := inferInstanceAs (Decidable (_ < _))

theorem size_lt (m : CoMessage) : m.size < 2 ^ 32 := m.readWord_lt 16

theorem totalSize_eq {m : CoMessage} (h : m.Fits) : m.totalSize = sizeofCoMessage + m.size := by
  unfold totalSize
  rw [Nat.mod_eq_of_lt (by unfold Fits at h; omega), Nat.add_comm]

@[simp] theorem length_bytes (m : CoMessage) : m.bytes.length = sizeofCoMessage + m.size :=
  m.length_slice 0 _

end CoMessage

/-- `co_message_dup` into fresh memory with these contents. -/
def coMessageDup (memory : ByteMem) (message : CoMessage) : CoMessage :=
  fun i => if i < message.totalSize then message i else memory i

/-- The copy of an object that fits the address space shows the same header and data. -/
theorem coMessageDup_word {m : CoMessage} (fits : m.Fits) (memory : ByteMem) {a : Nat}
    (h : a + 4 ≤ sizeofCoMessage + m.size) :
    (coMessageDup memory m).readWord a = m.readWord a := by
  apply ByteMem.readWord_congr
  intro x _ hx
  exact if_pos (by rw [CoMessage.totalSize_eq fits]; omega)

theorem coMessageDup_size {m : CoMessage} (fits : m.Fits) (memory : ByteMem) :
    (coMessageDup memory m).size = m.size :=
  coMessageDup_word fits memory (by simp)

theorem coMessageDup_bytes {m : CoMessage} (fits : m.Fits) (memory : ByteMem) :
    (coMessageDup memory m).bytes = m.bytes := by
  unfold CoMessage.bytes
  rw [coMessageDup_size fits]
  apply ByteMem.slice_congr
  intro i hi
  exact if_pos (by rw [CoMessage.totalSize_eq fits]; omega)

/-- The message with these header words and `data` behind them. -/
def coMessage (fromModule toModule priority type size : Nat) (data : ByteMem) : CoMessage :=
  ByteMem.writeWords (fun i => data (i - sizeofCoMessage)) 0 5 fun
    | 0 => fromModule
    | 1 => toModule
    | 2 => priority
    | 3 => type
    | _ => size

theorem coMessage_size {fromModule toModule priority type size : Nat} (data : ByteMem)
    (h : size < 2 ^ 32) : (coMessage fromModule toModule priority type size data).size = size :=
  ByteMem.readWord_writeWords _ (a := 0) (i := 4) (by decide) h

/-- The `co_linux_message_t` with these header words and `data` behind them. -/
def coLinuxMessage (device unit size : Nat) (data : ByteMem) : ByteMem :=
  ByteMem.writeWords (fun i => data (i - sizeofCoLinuxMessage)) 0 3 fun
    | 0 => device
    | 1 => unit
    | _ => size

/-- A stream of messages, each header followed by its data. -/
def coMessageFraming : Framing UInt8 where
  header := sizeofCoMessage
  body bs := (ByteMem.ofList bs).readWord 16
  header_pos := by decide
  body_append _ ys h := ByteMem.readWord_ofList_append ys (by simpa using h)

theorem coMessageFraming_body_slice (mem : ByteMem) (a : Nat) {n : Nat} (h : sizeofCoMessage ≤ n) :
    coMessageFraming.body (mem.slice a n) = CoMessage.size fun i => mem (a + i) :=
  mem.readWord_ofList_slice (by simpa using h)

/-- The header and the data of a message are one record. -/
theorem coMessageFraming_record_bytes (m : CoMessage) : coMessageFraming.Record m.bytes := by
  have body : coMessageFraming.body m.bytes = m.size :=
    m.readWord_ofList_slice (a := 0) (by simp)
  constructor
  · simp [coMessageFraming]
  · unfold Framing.recordLength
    rw [body]
    simp [coMessageFraming]

end CoLinux
