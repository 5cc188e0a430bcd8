import Mathlib.Algebra.Group.Nat.Defs
import Mathlib.Data.List.Basic

/-!
# The data of the CDC library

The types of `CDCTypes.h`, `CdcInterface.h` and `CDCMessageParser.h`, and the
exceptions of the `CDC*Exception.h` headers.

* A `ustring` is `UString`, a list of bytes.
* An `unsigned int` that counts bytes or names a position in a buffer is a
  `Nat`.  A buffer is taken to be shorter than `2 ^ 32` bytes, so that no
  such counter wraps.  The `size_t` differences of the decoders do wrap when
  a message is too short: they are `sizeSub`.
* The union of `SPIStatus` and its flag are one sum type.
* An allocation is taken to succeed.
* An exception is its class and its cause.  The file and the line that
  `THROW_EXCEPT` puts in front of the cause, and the error number of the
  operating system at its end, are left out.
-/

namespace Clibcdc

/-! ## Bytes and strings -/

abbrev Byte := UInt8

/-- `ustring`, the `std::basic_string<unsigned char>` of the library. -/
abbrev UString := List Byte

/-- The byte of an ASCII character. -/
def chr (c : Char) : Byte := c.toNat.toUInt8

/-- The bytes of an ASCII text. -/
def ascii (s : String) : UString := s.toList.map chr

/-- The carriage return that ends every message. -/
def cr : Byte := 0x0D

/-- `s.find(b, from)`: the first position at or after `from` that holds `b`. -/
def find (s : UString) (b : Byte) (start : Nat) : Option Nat :=
  ((s.drop start).findIdx? (· = b)).map (· + start)

/-- The first occurrence behind `pre` is the one that nothing before it is. -/
theorem find_of_split {s : UString} (pre : UString) {mid : UString} (post : UString) {b : Byte}
    {start : Nat} (hs : s = pre ++ (mid ++ b :: post)) (hstart : start = pre.length)
    (hmid : b ∉ mid) : find s b start = some (start + mid.length) := by
  have hfirst : (mid ++ b :: post).findIdx? (· = b) = some mid.length := by
    have hnone : mid.findIdx? (· = b) = none := by
      rw [List.findIdx?_eq_none_iff]
      intro c hc
      have hne : c ≠ b := by
        rintro rfl
        exact hmid hc
      simpa using hne
    rw [List.findIdx?_append]
    simp [hnone, List.findIdx?_cons]
  rw [find, hs, hstart, List.drop_left, hfirst]
  simp [Nat.add_comm]

theorem find_append_of_some {s : UString} {b : Byte} {start k : Nat} (h : find s b start = some k)
    (v : UString) : find (s ++ v) b start = some k := by
  rw [find, Option.map_eq_some_iff] at h
  obtain ⟨i, hi, rfl⟩ := h
  have hlt : start ≤ s.length := by
    by_contra hlong
    rw [List.drop_of_length_le (by omega)] at hi
    simp at hi
  rw [find, List.drop_append_of_le_length hlt, List.findIdx?_append, hi]
  rfl

theorem find_lt {s : UString} {b : Byte} {start k : Nat} (h : find s b start = some k) :
    k < s.length := by
  rw [find, Option.map_eq_some_iff] at h
  obtain ⟨i, hi, rfl⟩ := h
  obtain ⟨hlt, -⟩ := List.findIdx?_eq_some_iff_getElem.mp hi
  rw [List.length_drop] at hlt
  omega

theorem find_getElem {s : UString} {b : Byte} {start k : Nat} (h : find s b start = some k) :
    s[k]? = some b := by
  rw [find, Option.map_eq_some_iff] at h
  obtain ⟨i, hi, rfl⟩ := h
  obtain ⟨hlt, hb, -⟩ := List.findIdx?_eq_some_iff_getElem.mp hi
  rw [List.getElem_drop, decide_eq_true_eq] at hb
  rw [List.length_drop] at hlt
  rw [Nat.add_comm i start, List.getElem?_eq_getElem (by omega), hb]

theorem find_isSome_of_mem {s : UString} {b : Byte} {start : Nat} (h : b ∈ s.drop start) :
    (find s b start).isSome = true := by
  rw [find, Option.isSome_map, List.findIdx?_isSome, List.any_eq_true]
  exact ⟨b, h, by simp⟩

/-- `s.erase(0, n)`. -/
def erase (s : UString) (n : Nat) : UString := s.drop n

/-! ## Sizes

`size_t` has 64 bits.  A difference wraps when it would be negative, and so
does the position behind `npos`. -/

/-- `std::string::npos`, what `find` returns when there is no such byte. -/
def npos : Nat := 2 ^ 64 - 1

/-- `a - b` on `size_t`. -/
def sizeSub (a b : Nat) : Nat := if b ≤ a then a - b else a + 2 ^ 64 - b

/-- A position that `find` returned, as a `size_t`. -/
def posValue (pos : Option Nat) : Nat := pos.getD npos

/-- The position behind one that `find` returned: `npos + 1` wraps to 0. -/
def posNext : Option Nat → Nat
  | some pos => pos + 1
  | none => 0

/-! ## Messages -/

inductive MessageType where
  | msgError | msgTest | msgResUsb | msgResTr | msgUsbInfo
  | msgTrInfo | msgUsbConn | msgSpiStat | msgDataSend | msgSwitch
  | msgAsync | msgModeNormal | msgModeProgram | msgUploadDownload
  | msgDownloadData
  deriving DecidableEq, Repr

inductive ParseResultType where
  | parseOk | parseNotComplete | parseBadFormat
  deriving DecidableEq, Repr

structure ParseResult where
  msgType : MessageType
  resultType : ParseResultType
  lastPosition : Nat
  deriving DecidableEq, Repr

/-- `CDCImplPrivate::ParsedMessage`. -/
structure ParsedMessage where
  message : UString
  parseResult : ParseResult
  deriving DecidableEq, Repr

/-! ## Decoded responses -/

/-- `DeviceInfo`: each `char*` is the bytes copied behind it. -/
structure DeviceInfo where
  type : UString
  typeLen : Nat
  firmwareVersion : UString
  fwLen : Nat
  serialNumber : UString
  snLen : Nat
  deriving DecidableEq, Repr

structure ModuleInfo where
  serialNumber : UString
  osVersion : Byte
  trType : Byte
  osBuild : UString
  reserved : UString
  ibk : UString
  deriving DecidableEq, Repr

inductive SPIModes where
  | disabled | suspended | buffProtect | crcmErr | readyComm | readyProg
  | readyDebug | slowMode | hwError
  deriving DecidableEq, Repr

/-- The value of an enumerator of `SPIModes`. -/
def SPIModes.value : SPIModes → Nat
  | .disabled => 0x0
  | .suspended => 0x07
  | .buffProtect => 0x3F
  | .crcmErr => 0x3E
  | .readyComm => 0x80
  | .readyProg => 0x81
  | .readyDebug => 0x82
  | .slowMode => 0x83
  | .hwError => 0xFF

/-- `SPIStatus`: the flag `isDataReady` says which member of the union is
in use. -/
inductive SPIStatus where
  | spiMode (mode : SPIModes)
  | dataReady (value : Nat)
  deriving DecidableEq, Repr

/-- The value of the member of the union that is in use. -/
def SPIStatus.value : SPIStatus → Nat
  | .spiMode mode => mode.value
  | .dataReady value => value

inductive DSResponse where
  | ok | err | busy
  deriving DecidableEq, Repr

inductive PMResponse where
  | ok | err2 | err3 | err4 | err5 | err6 | err7 | busy
  deriving DecidableEq, Repr

inductive PTEResponse where
  | ok | err1
  deriving DecidableEq, Repr

/-! ## Exceptions -/

/-- The class of an exception.  `std` stands for the exceptions of the
standard library, and `undefined` for an evaluation that C++ gives no meaning
to.  -/
inductive ExceptionClass where
  | implException | sendException | receiveException | parserException
  | std | undefined
  deriving DecidableEq, Repr

structure CdcException where
  identity : ExceptionClass
  cause : String
  deriving DecidableEq, Repr

/-- `CDCSendException`, `CDCReceiveException` and `CDCMessageParserException`
derive from `CDCImplException`, so a handler of the base class catches them
too. -/
def ExceptionClass.caughtBy : ExceptionClass → ExceptionClass → Bool
  | thrown, .implException =>
      thrown = .implException || thrown = .sendException
        || thrown = .receiveException || thrown = .parserException
  | thrown, handler => thrown = handler

/-! ## Library calls that throw -/

/-- `s.at(i)`. -/
def charAt (s : UString) (i : Nat) : Except CdcException Byte :=
  match s[i]? with
  | some b => .ok b
  | none => .error ⟨.std, "out_of_range"⟩

/-- `s.substr(pos, n)`: at most `n` bytes from `pos` on. -/
def substr (s : UString) (pos n : Nat) : Except CdcException UString :=
  if pos ≤ s.length then .ok ((s.drop pos).take n) else .error ⟨.std, "out_of_range"⟩

end Clibcdc
