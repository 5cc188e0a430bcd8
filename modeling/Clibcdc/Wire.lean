import Clibcdc.Command

/-!
# Commands on the wire

What a command is to be sent as, stated apart from `commandToBuffer`:
`Command.wire` spells it, and `decodeCommand` reads it back.

`commandToBuffer_encodes` says that the bytes handed to the port are that
spelling, whatever the transmit buffer held before, or that the data are too
large for the one byte that counts them.
-/

namespace Clibcdc

open Clibcdc.Parser

/-! ## The commands of the public interface -/

/-- The commands that the public interface constructs. -/
def Command.Constructible (cmd : Command) : Prop :=
  match cmd.msgType with
  | .msgTest | .msgResUsb | .msgResTr | .msgUsbInfo | .msgTrInfo | .msgUsbConn | .msgSpiStat
  | .msgSwitch | .msgModeNormal | .msgModeProgram => cmd.data = []
  | .msgDataSend => True
  | .msgUploadDownload => cmd.data ≠ []
  | .msgAsync | .msgDownloadData | .msgError => False

/-- The operations build their commands as the constructors ask for. -/
theorem command_constructible {op : Operation} {cmd : Command} (h : op.command = .ok cmd) :
    cmd.Constructible := by
  cases op with
  | sendData data =>
    rw [← Except.ok.inj h]
    trivial
  | upload target data =>
    rw [(upload_command h).2]
    exact List.cons_ne_nil target data
  | download target inputData =>
    rw [(download_command h).2]
    exact List.cons_ne_nil target inputData
  | _ =>
    rw [← Except.ok.inj h]
    rfl

/-- The data do not fit: their size has one byte, in the command or in the
protocol. -/
def Command.TooLarge (cmd : Command) : Prop :=
  (cmd.msgType = .msgDataSend ∨ cmd.msgType = .msgUploadDownload) ∧ 255 < cmd.data.length

instance : DecidablePred Command.TooLarge := fun cmd =>
  inferInstanceAs (Decidable ((cmd.msgType = .msgDataSend ∨ cmd.msgType = .msgUploadDownload) ∧
    255 < cmd.data.length))

/-! ## The spelling -/

/-- What follows the `>` of a command. -/
def MessageType.header : MessageType → UString
  | .msgResUsb => ascii "R"
  | .msgResTr => ascii "RT"
  | .msgUsbInfo => ascii "I"
  | .msgTrInfo => ascii "IT"
  | .msgUsbConn => ascii "B"
  | .msgSpiStat => ascii "S"
  | .msgSwitch => ascii "U"
  | .msgModeNormal => ascii "PT"
  | .msgModeProgram => ascii "PE"
  | .msgDataSend => ascii "DS"
  | .msgUploadDownload => ascii "PM"
  | .msgTest | .msgAsync | .msgDownloadData | .msgError => []

/-- The size of the data, where it is sent. -/
def Command.sizeField (cmd : Command) : UString :=
  if cmd.msgType = .msgDataSend then [cmd.data.length.toUInt8, chr ':'] else []

def Command.wire (cmd : Command) : UString :=
  ascii ">" ++ cmd.msgType.header ++ cmd.sizeField ++ cmd.data ++ [cr]

/-- The text of a command is its spelling. -/
theorem commandText_eq {cmd : Command} (hcmd : cmd.Constructible) :
    commandText cmd = if cmd.TooLarge then .error dataTooLarge else .ok cmd.wire := by
  obtain ⟨msgType, data⟩ := cmd
  cases msgType with
  | msgDataSend =>
    by_cases hlarge : data.length > ucharMax
    · rw [if_pos ⟨.inl rfl, hlarge⟩]
      simp [commandText, hlarge, bind, Except.bind, throw, throwThe, MonadExceptOf.throw]
    · rw [if_neg fun h => hlarge h.2]
      simp [commandText, hlarge, bind, Except.bind, pure, Except.pure, messageHeaders,
        Command.wire, MessageType.header, Command.sizeField]
  | msgUploadDownload =>
    by_cases hlarge : data.length > ucharMax
    · rw [if_pos ⟨.inr rfl, hlarge⟩]
      simp [commandText, hlarge, bind, Except.bind, pure, Except.pure, throw, throwThe,
        MonadExceptOf.throw]
    · rw [if_neg fun h => hlarge h.2]
      simp [commandText, hlarge, bind, Except.bind, pure, Except.pure, messageHeaders,
        Command.wire, MessageType.header, Command.sizeField]
  | msgAsync | msgDownloadData | msgError => exact hcmd.elim
  | _ =>
    obtain rfl : data = [] := hcmd
    rfl

/-! ## Reading it back -/

/-- The commands without data. -/
def plainCommands : List Command :=
  [.msgTest, .msgResUsb, .msgResTr, .msgUsbInfo, .msgTrInfo, .msgUsbConn, .msgSpiStat,
    .msgSwitch, .msgModeNormal, .msgModeProgram].map (⟨·, []⟩)

def decodeCommand (bytes : UString) : Option Command :=
  match plainCommands.find? (·.wire = bytes) with
  | some cmd => some cmd
  | none =>
    if ascii ">DS" <+: bytes then some ⟨.msgDataSend, (bytes.drop 5).dropLast⟩
    else if ascii ">PM" <+: bytes then some ⟨.msgUploadDownload, (bytes.drop 3).dropLast⟩
    else none

/-- A longer command is none of the commands without data. -/
theorem find_plainCommands {bytes : UString} (h : 5 ≤ bytes.length) :
    plainCommands.find? (·.wire = bytes) = none := by
  have hshort : ∀ cmd ∈ plainCommands, cmd.wire.length ≤ 4 := by decide
  rw [List.find?_eq_none]
  intro cmd hcmd hwire
  have hlen := hshort cmd hcmd
  rw [of_decide_eq_true hwire] at hlen
  omega

theorem decodeCommand_wire {cmd : Command} (hcmd : cmd.Constructible) :
    decodeCommand cmd.wire = some cmd := by
  obtain ⟨msgType, data⟩ := cmd
  cases msgType with
  | msgDataSend =>
    have hwire : (Command.mk .msgDataSend data).wire =
        ascii ">DS" ++ ([data.length.toUInt8, chr ':'] ++ (data ++ [cr])) := by
      simp [Command.wire, MessageType.header, Command.sizeField, ascii]
    rw [decodeCommand, find_plainCommands (by simp [hwire, ascii]), hwire]
    simp [ascii, List.prefix_cons_iff]
  | msgUploadDownload =>
    have hpos := List.length_pos_iff.mpr (show data ≠ [] from hcmd)
    have hwire : (Command.mk .msgUploadDownload data).wire = ascii ">PM" ++ (data ++ [cr]) := by
      simp [Command.wire, MessageType.header, Command.sizeField, ascii]
    rw [decodeCommand, find_plainCommands (by simp [hwire, ascii]; omega), hwire]
    have hother : ¬ ascii ">DS" <+: ascii ">PM" ++ (data ++ [cr]) := by
      simp [ascii, chr, List.cons_prefix_cons]
    rw [if_neg hother, if_pos (List.prefix_append _ _)]
    simp [ascii]
  | msgAsync | msgDownloadData | msgError => exact hcmd.elim
  | _ =>
    obtain rfl : data = [] := hcmd
    decide

/-- `commandToBuffer` throws when the data are too large, and leaves the
transmit buffer as it was.  Any other command is in the transmit buffer behind
it, whatever was there before, and can be read back: no two commands are
spelled alike. -/
theorem commandToBuffer_encodes (self : CDCImplPrivate) {cmd : Command}
    (hcmd : cmd.Constructible) :
    (cmd.TooLarge ∧ commandToBuffer self cmd = (.error dataTooLarge, self)) ∨
    (¬ cmd.TooLarge ∧ ∃ buffCmd self', commandToBuffer self cmd = (.ok buffCmd, self') ∧
      buffCmd.cmd = self'.m_transmitBuffer ∧ buffCmd.len ≤ self'.m_transmitBufferLen ∧
      (self.m_transmitBuffer.length = self.m_transmitBufferLen →
        self'.m_transmitBuffer.length = self'.m_transmitBufferLen) ∧
      buffCmd.len = cmd.wire.length ∧ buffCmd.cmd.take buffCmd.len = cmd.wire ∧
      decodeCommand (buffCmd.cmd.take buffCmd.len) = some cmd ∧
      ∀ cmd' : Command, cmd'.Constructible → cmd'.wire = cmd.wire → cmd' = cmd) := by
  rw [commandToBuffer, commandText_eq hcmd]
  by_cases hlarge : cmd.TooLarge
  · left
    rw [if_pos hlarge]
    exact ⟨hlarge, rfl⟩
  · right
    refine ⟨hlarge, ?_⟩
    rw [if_neg hlarge]
    have htake : ∀ rest : UString, (cmd.wire ++ rest).take cmd.wire.length = cmd.wire :=
      fun rest => List.take_left
    refine ⟨_, _, rfl, rfl, ?_, ?_, rfl, htake _, ?_, ?_⟩
    · split_ifs with hgrow
      · exact Nat.le_refl _
      · exact Nat.le_of_not_lt hgrow
    · intro hsized
      split_ifs with hgrow
      · simp
      · simp [hsized]
        omega
    · rw [htake, decodeCommand_wire hcmd]
    · intro cmd' hcmd' hwire
      have hdecode := decodeCommand_wire hcmd'
      rw [hwire, decodeCommand_wire hcmd] at hdecode
      exact (Option.some.inj hdecode).symm

theorem commandToBuffer_encodes_sendData :
    ∃ buffCmd self', commandToBuffer (.init (.new listedOnly)) ⟨.msgDataSend, [cr]⟩ =
        (.ok buffCmd, self') ∧
      buffCmd.cmd.take buffCmd.len = ascii ">DS" ++ [1, chr ':', cr, cr] ∧
      decodeCommand (buffCmd.cmd.take buffCmd.len) = some ⟨.msgDataSend, [cr]⟩ := by
  rcases @commandToBuffer_encodes (.init (.new listedOnly)) ⟨.msgDataSend, [cr]⟩ trivial
    with ⟨hlarge, -⟩ | ⟨-, buffCmd, self', hbuffer, -, -, -, -, hwire, hdecode, -⟩
  · exact absurd hlarge (by decide)
  · exact ⟨buffCmd, self', hbuffer, hwire, hdecode⟩

end Clibcdc
