import Clibcdc.Frame

/-!
# The decoders of accepted messages

`CDCMessageParser::getParsed*`: offset arithmetic and text comparisons on a
message that the parser has accepted.  None of them looks at the automaton.

Each decoder is total here and throws where the source does: `substr` and `at`
out of range, a length that has wrapped, and an unknown response text.
`getParsedModuleInfo` answers `none` for `NULL`.
-/

namespace Clibcdc.Parser

/-! ## Device info -/

/-- `ant_new char[n]` for a part of a message.  Only a length that has wrapped is
more than that of the message, and then it is more than can be allocated. -/
def newChars (data : UString) (n : Nat) : Except CdcException Unit :=
  if n ≤ data.length then .ok () else .error ⟨.std, "bad_alloc"⟩

def getParsedDeviceInfo (data : UString) : Except CdcException DeviceInfo := do
  -- type parsing
  let firstHashPos := find data (chr '#') 3
  let typeSize := sizeSub (posValue firstHashPos) 3
  let typeStr ← substr data 3 typeSize
  newChars data (typeSize + 1)
  -- firmware version parsing
  let secondHashPos := find data (chr '#') (posNext firstHashPos)
  let fmSize := sizeSub (sizeSub (posValue secondHashPos) (posValue firstHashPos)) 1
  let fmStr ← substr data (posNext firstHashPos) fmSize
  newChars data (fmSize + 1)
  -- serial number parsing
  let crPos := find data 13 (posNext secondHashPos)
  let snSize := sizeSub (sizeSub (posValue crPos) (posValue secondHashPos)) 1
  let snStr ← substr data (posNext secondHashPos) snSize
  newChars data (snSize + 1)
  return {
    type := typeStr, typeLen := typeSize
    firmwareVersion := fmStr, fwLen := fmSize
    serialNumber := snStr, snLen := snSize }

/-! ## Module info -/

/-- A loop that copies `n` bytes with `data.at`, from `start` on. -/
def copyAt (data : UString) (start : Nat) : Nat → Except CdcException UString
  | 0 => return []
  | n + 1 => do
    let b ← charAt data start
    let rest ← copyAt data (start + 1) n
    return b :: rest

/-- The loop that reads the individual bonding key, or fills it with zeros. -/
def readIbk (data : UString) (start : Nat) : Except CdcException UString :=
  if data.length = 37 then copyAt data start 16 else .ok (List.replicate 16 0)

def getParsedModuleInfo (data : UString) : Except CdcException (Option ModuleInfo) := do
  if data.length ≠ 21 ∧ data.length ≠ 37 then
    return none
  let msgBodyPos := 4
  let serialNumber ← copyAt data msgBodyPos 4
  let osVersion ← charAt data (msgBodyPos + 4)
  let trType ← charAt data (msgBodyPos + 5)
  let osBuild ← copyAt data (msgBodyPos + 6) 2
  let reserved ← copyAt data (msgBodyPos + 8) 8
  let ibk ← readIbk data (msgBodyPos + 16)
  return some { serialNumber, osVersion, trType, osBuild, reserved, ibk }

/-! ## SPI status -/

def initSpiModes : List SPIModes :=
  [.disabled, .suspended, .buffProtect, .crcmErr, .readyComm, .readyProg, .readyDebug,
    .slowMode, .hwError]

def getParsedSPIStatus (data : UString) : Except CdcException SPIStatus := do
  let msgBodyPos := 3
  let parsedValue := (← charAt data msgBodyPos).toNat
  match initSpiModes.find? (·.value = parsedValue) with
  | some mode => return .spiMode mode
  | none => return .dataReady parsedValue

/-! ## Response texts -/

/-- The text between the header and the final carriage return. -/
def responseBody (data : UString) : Except CdcException UString :=
  let msgBodyPos := 4
  let bodyLen := sizeSub (sizeSub data.length 1) msgBodyPos
  substr data msgBodyPos bodyLen

/-- `excStream << msgBody.c_str()` stops at the first zero byte. -/
def unknownResponse (kind : String) (msgBody : UString) : CdcException :=
  ⟨.parserException, "Unknown " ++ kind ++ " response value: " ++
    String.ofList ((msgBody.takeWhile (· ≠ 0)).map fun b => Char.ofNat b.toNat)⟩

def getParsedDSResponse (data : UString) : Except CdcException DSResponse := do
  let msgBody ← responseBody data
  if msgBody = ascii "OK" then return .ok
  if msgBody = ascii "ERR" then return .err
  if msgBody = ascii "BUSY" then return .busy
  throw (unknownResponse "DS" msgBody)

/-- The two programming mode responses have one decoder each, with its own
error text. -/
def pteResponse (kind : String) (data : UString) : Except CdcException PTEResponse := do
  let msgBody ← responseBody data
  if msgBody = ascii "OK" then return .ok
  if msgBody = ascii "ERR1" then return .err1
  throw (unknownResponse kind msgBody)

def getParsedPEResponse (data : UString) : Except CdcException PTEResponse :=
  pteResponse "PE" data

def getParsedPTResponse (data : UString) : Except CdcException PTEResponse :=
  pteResponse "PT" data

def getParsedPMResponse (data : UString) : Except CdcException PMResponse := do
  let msgBody ← responseBody data
  if msgBody = ascii "OK" then return .ok
  if msgBody = ascii "ERR2" then return .err2
  if msgBody = ascii "ERR3" then return .err3
  if msgBody = ascii "ERR4" then return .err4
  if msgBody = ascii "ERR5" then return .err5
  if msgBody = ascii "ERR6" then return .err6
  if msgBody = ascii "ERR7" then return .err7
  if msgBody = ascii "BUSY" then return .busy
  throw (unknownResponse "PM" msgBody)

/-! ## Payloads -/

/-- The bytes from `userDataStart` up to the final carriage return. -/
def userData (userDataStart : Nat) (data : UString) : Except CdcException UString :=
  let userDataLen := sizeSub (sizeSub data.length 1) userDataStart
  substr data userDataStart userDataLen

def getParsedDRData (data : UString) : Except CdcException UString := userData 5 data

def getParsedPMData (data : UString) : Except CdcException UString := userData 4 data

/-! ## What the decoders read -/

theorem sizeSub_of_le {a b : Nat} (h : b ≤ a) : sizeSub a b = a - b := if_pos h

theorem substr_of_split {s : UString} (pre : UString) {mid : UString} (post : UString)
    {pos n : Nat} (hs : s = pre ++ (mid ++ post))
    (hpos : pos = pre.length) (hn : n = mid.length) : substr s pos n = .ok mid := by
  rw [substr, hs, hpos, hn, if_pos (by simp only [List.length_append]; omega), List.drop_left,
    List.take_left]

/-- The body of a message whose header has the length the decoder skips. -/
theorem userData_eq (header body : UString) :
    userData header.length (header ++ body ++ [cr]) = .ok body := by
  have hlen : (header ++ body ++ [cr]).length = header.length + body.length + 1 := by
    simp only [List.length_append, List.length_singleton]
  have hbody : sizeSub (sizeSub (header.length + body.length + 1) 1) header.length =
      body.length := by
    rw [sizeSub_of_le (Nat.le_add_left 1 _), Nat.add_sub_cancel,
      sizeSub_of_le (Nat.le_add_right _ _), Nat.add_sub_cancel_left]
  rw [userData, hlen]
  simp only [hbody]
  exact substr_of_split _ _ (List.append_assoc header body [cr]) rfl rfl

theorem copyAt_eq {data : UString} {start n : Nat} (h : start + n ≤ data.length) :
    copyAt data start n = .ok ((data.drop start).take n) := by
  induction n generalizing start with
  | zero => simp [copyAt, pure, Except.pure]
  | succ n ih =>
    have hlt : start < data.length := by omega
    have hrest := @ih (start + 1) (by omega)
    rw [copyAt, charAt, List.getElem?_eq_getElem hlt, List.drop_eq_getElem_cons hlt]
    simp only [bind, Except.bind, hrest, List.take_succ_cons]
    rfl

/-! ## The decoders invert the spelling -/

theorem getParsedDRData_eq (payload : Payload) :
    getParsedDRData (Frame.async payload).bytes = .ok payload.data := by
  have hbytes : (Frame.async payload).bytes =
      (ascii "<DR" ++ [payload.lengthByte, chr ':']) ++ payload.data ++ [cr] := by
    have hhead : ascii "<DR" = chr '<' :: ascii "DR" := rfl
    simp [Frame.bytes, Frame.body, hhead]
  rw [hbytes]
  exact userData_eq _ payload.data

theorem getParsedPMData_eq (data : UString) :
    getParsedPMData (ascii "<PM:" ++ data ++ [cr]) = .ok data :=
  userData_eq (ascii "<PM:") data

theorem getParsedDSResponse_eq (response : DSResponse) :
    getParsedDSResponse (Frame.dataSend response).bytes = .ok response := by
  cases response <;> decide

theorem getParsedPEResponse_eq (response : PTEResponse) :
    getParsedPEResponse (Frame.modeProgram response).bytes = .ok response := by
  cases response <;> decide

theorem getParsedPTResponse_eq (response : PTEResponse) :
    getParsedPTResponse (Frame.modeNormal response).bytes = .ok response := by
  cases response <;> decide

theorem getParsedPMResponse_eq (response : PMResponse) :
    getParsedPMResponse (ascii "<PM:" ++ response.text ++ [cr]) = .ok response := by
  cases response <;> decide

/-- Whichever member of the union is used, it holds the status byte. -/
theorem getParsedSPIStatus_eq (status : Byte) :
    ∃ spiStatus, getParsedSPIStatus (Frame.spiStat status).bytes = .ok spiStatus ∧
      spiStatus.value = status.toNat := by
  have hat : charAt (Frame.spiStat status).bytes 3 = .ok status := rfl
  rw [getParsedSPIStatus, hat]
  simp only [bind, Except.bind, pure, Except.pure]
  cases hfind : initSpiModes.find? (·.value = status.toNat) with
  | none => exact ⟨_, rfl, rfl⟩
  | some mode =>
    have hvalue : mode.value = status.toNat := by simpa using List.find?_some hfind
    exact ⟨_, rfl, hvalue⟩

/-- The three searches of the device info decoder on a device info: where the
two hashes and the carriage return are found. -/
theorem usbInfo_finds (type : Field isTypeByte) (version : Field isVersionByte)
    (id : Field isIdByte) :
    find (Frame.usbInfo type version id).bytes (chr '#') 3 = some (3 + type.text.length) ∧
      find (Frame.usbInfo type version id).bytes (chr '#') (3 + type.text.length + 1) =
        some (3 + type.text.length + 1 + version.text.length) ∧
      find (Frame.usbInfo type version id).bytes cr
          (3 + type.text.length + 1 + version.text.length + 1) =
        some (3 + type.text.length + 1 + version.text.length + 1 + id.text.length) := by
  have hbytes := usbInfo_bytes type version id []
  rw [List.append_nil] at hbytes
  have htype : chr '#' ∉ type.text := fun h => absurd (type.valid _ h) (by decide)
  have hversion : chr '#' ∉ version.text := fun h => absurd (version.valid _ h) (by decide)
  have hid : cr ∉ id.text := fun h => absurd (id.valid _ h) (by decide)
  refine ⟨?_, ?_, ?_⟩
  · exact find_of_split (ascii "<I:") _ hbytes rfl htype
  · exact find_of_split (ascii "<I:" ++ type.text ++ [chr '#'])
      (id.text ++ [cr]) (by simp [hbytes]) (by simp [ascii]; omega) hversion
  · exact find_of_split
      (ascii "<I:" ++ type.text ++ [chr '#'] ++ version.text ++ [chr '#'])
      [] (by simp [hbytes]) (by simp [ascii]; omega) hid

theorem getParsedDeviceInfo_eq (type : Field isTypeByte) (version : Field isVersionByte)
    (id : Field isIdByte) :
    getParsedDeviceInfo (Frame.usbInfo type version id).bytes = .ok {
      type := type.text, typeLen := type.text.length
      firmwareVersion := version.text, fwLen := version.text.length
      serialNumber := id.text, snLen := id.text.length } := by
  obtain ⟨hfirst, hsecond, hcr⟩ := usbInfo_finds type version id
  have hbytes := usbInfo_bytes type version id []
  rw [List.append_nil] at hbytes
  have htype : substr (Frame.usbInfo type version id).bytes 3 type.text.length =
      .ok type.text :=
    substr_of_split (ascii "<I:") _ hbytes rfl rfl
  have hversion : substr (Frame.usbInfo type version id).bytes (3 + type.text.length + 1)
      version.text.length = .ok version.text :=
    substr_of_split (ascii "<I:" ++ type.text ++ [chr '#'])
      (chr '#' :: (id.text ++ [cr])) (by simp [hbytes]) (by simp [ascii]; omega) rfl
  have hid : substr (Frame.usbInfo type version id).bytes
      (3 + type.text.length + 1 + version.text.length + 1) id.text.length = .ok id.text :=
    substr_of_split (ascii "<I:" ++ type.text ++ [chr '#'] ++ version.text ++ [chr '#'])
      [cr] (by simp [hbytes]) (by simp [ascii]; omega) rfl
  have hsize : ∀ a b, sizeSub (sizeSub (a + 1 + b) a) 1 = b := by
    intro a b
    rw [sizeSub_of_le (Nat.le_trans (Nat.le_add_right a 1) (Nat.le_add_right _ b)),
      Nat.add_assoc, Nat.add_sub_cancel_left, sizeSub_of_le (Nat.le_add_right 1 b),
      Nat.add_sub_cancel_left]
  have htypeSize : sizeSub (3 + type.text.length) 3 = type.text.length := by
    rw [sizeSub_of_le (by omega)]
    omega
  have hlength : (Frame.usbInfo type version id).bytes.length =
      3 + type.text.length + 1 + version.text.length + 1 + id.text.length + 1 := by
    simp [hbytes, ascii]
    omega
  have hnew : ∀ n < (Frame.usbInfo type version id).bytes.length,
      newChars (Frame.usbInfo type version id).bytes (n + 1) = .ok () := fun n hn => if_pos hn
  simp only [getParsedDeviceInfo, hfirst, posValue, posNext, Option.getD_some, htypeSize, htype,
    hsecond, hsize, hversion, show (13 : Byte) = cr from rfl, hcr, hid, bind, Except.bind, pure,
    Except.pure, hnew _ (show type.text.length < _ by omega),
    hnew _ (show version.text.length < _ by omega), hnew _ (show id.text.length < _ by omega)]

/-- Without a `#` the length of the type wraps, and the allocation throws. -/
theorem getParsedDeviceInfo_noHash {data : UString} (hlong : 3 ≤ data.length)
    (hsize : data.length < 2 ^ 63) (hhash : find data (chr '#') 3 = none) :
    getParsedDeviceInfo data = .error ⟨.std, "bad_alloc"⟩ := by
  have htype : substr data 3 (sizeSub npos 3) = .ok ((data.drop 3).take (sizeSub npos 3)) :=
    if_pos hlong
  have hwrapped : data.length < sizeSub npos 3 + 1 := by
    rw [sizeSub_of_le (by decide)]
    unfold npos
    omega
  have hnew : newChars data (sizeSub npos 3 + 1) = .error ⟨.std, "bad_alloc"⟩ :=
    if_neg (Nat.not_le_of_lt hwrapped)
  simp only [getParsedDeviceInfo, hhash, posValue, Option.getD_none, htype, hnew, bind, Except.bind]

section ModuleInfo

variable {d : UString}

private theorem copyAt_block {k n : Nat} (h : k + n ≤ d.length) :
    copyAt (ascii "<IT:" ++ d ++ [cr]) (4 + k) n = .ok ((d.drop k).take n) := by
  have hdrop : (ascii "<IT:" ++ d ++ [cr]).drop (4 + k) = (d ++ [cr]).drop k := by
    rw [← List.drop_drop, List.append_assoc]
    rfl
  rw [copyAt_eq (by simp [ascii]; omega), hdrop, List.drop_append_of_le_length (by omega),
    List.take_append_of_le_length (by rw [List.length_drop]; omega)]

private theorem charAt_block {k : Nat} (h : k < d.length) :
    charAt (ascii "<IT:" ++ d ++ [cr]) (4 + k) = .ok d[k] := by
  have hat : (ascii "<IT:" ++ d ++ [cr])[4 + k]? = some d[k] := by
    rw [List.append_assoc, List.getElem?_append_right (by simp [ascii])]
    simp [ascii, List.getElem?_append_left h]
  rw [charAt, hat]

/-- The first 16 bytes of a block, cut as the decoder cuts them. -/
private theorem block_eq (h : 16 ≤ d.length) :
    d.take 4 ++ [d[4], d[5]] ++ (d.drop 6).take 2 ++ (d.drop 8).take 8 ++ d.drop 16 = d := by
  have hreserved : (d.drop 8).take 8 ++ d.drop 16 = d.drop 8 := by
    rw [show d.drop 16 = (d.drop 8).drop 8 by rw [List.drop_drop], List.take_append_drop]
  have hbuild : (d.drop 6).take 2 ++ d.drop 8 = d.drop 6 := by
    rw [show d.drop 8 = (d.drop 6).drop 2 by rw [List.drop_drop], List.take_append_drop]
  have htype : d[5] :: d.drop 6 = d.drop 5 := (List.drop_eq_getElem_cons (by omega)).symm
  have hversion : d[4] :: d.drop 5 = d.drop 4 := (List.drop_eq_getElem_cons (by omega)).symm
  simp only [List.append_assoc, List.cons_append, List.nil_append, hreserved, hbuild, htype,
    hversion, List.take_append_drop]

/-- The parts of a module info are cut from a block of 16 bytes, and the
bonding key from the 16 bytes behind it where there are any. -/
theorem getParsedModuleInfo_eq (hd : d.length = 16 ∨ d.length = 32) :
    ∃ modInfo, getParsedModuleInfo (ascii "<IT:" ++ d ++ [cr]) = .ok (some modInfo) ∧
      modInfo.serialNumber.length = 4 ∧ modInfo.osBuild.length = 2 ∧
      modInfo.reserved.length = 8 ∧ modInfo.ibk.length = 16 ∧
      modInfo.serialNumber ++ [modInfo.osVersion, modInfo.trType] ++ modInfo.osBuild ++
        modInfo.reserved ++ (if d.length = 32 then modInfo.ibk else []) = d ∧
      (d.length = 16 → modInfo.ibk = List.replicate 16 0) := by
  have hlen : (ascii "<IT:" ++ d ++ [cr]).length = d.length + 5 := by
    simp [ascii]
  have hibk : readIbk (ascii "<IT:" ++ d ++ [cr]) (4 + 16) =
      .ok (if d.length = 32 then d.drop 16 else List.replicate 16 0) := by
    rw [readIbk, hlen]
    rcases hd with hd | hd
    · rw [if_neg (by omega), if_neg (by omega)]
    · rw [if_pos (by omega), if_pos hd, copyAt_block (by omega), List.take_of_length_le]
      rw [List.length_drop]
      omega
  have hserial := copyAt_block (d := d) (k := 0) (n := 4) (by omega)
  refine ⟨⟨d.take 4, d[4], d[5], (d.drop 6).take 2, (d.drop 8).take 8,
    if d.length = 32 then d.drop 16 else List.replicate 16 0⟩, ?_, ?_, ?_, ?_, ?_, ?_, ?_⟩
  · rw [getParsedModuleInfo, if_neg (by omega)]
    simp only [Nat.add_zero, List.drop_zero] at hserial
    simp only [hserial, charAt_block (d := d) (k := 4) (by omega),
      charAt_block (d := d) (k := 5) (by omega), copyAt_block (d := d) (k := 6) (n := 2) (by omega),
      copyAt_block (d := d) (k := 8) (n := 8) (by omega), hibk, bind, Except.bind, pure,
      Except.pure]
  · simp only [List.length_take]
    omega
  · simp only [List.length_take, List.length_drop]
    omega
  · simp only [List.length_take, List.length_drop]
    omega
  · rcases hd with hd | hd <;> simp [hd]
  · have hblock := block_eq (d := d) (by omega)
    rcases hd with hd | hd
    · rw [List.drop_of_length_le (show d.length ≤ 16 by omega)] at hblock
      have hshort : d.length ≠ 32 := by omega
      simp only [if_neg hshort]
      exact hblock
    · rwa [if_pos hd, if_pos hd]
  · intro hd
    exact if_neg (by omega)

end ModuleInfo

end Clibcdc.Parser
