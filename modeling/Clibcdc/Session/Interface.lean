import Clibcdc.Memory.Reading
import Clibcdc.Session.Decoding

/-!
# The overloads of `upload` and `download`

Each of the two operations has an overload for strings and an overload for
pointers.  All four are `processCommand` with something in front of it and
something behind it.

* `upload` with a pointer converts the pointer to a string where it calls
  `verifyUpload`, and so reads on to the first zero byte
  (`upload_overloads`).
* `download` with a pointer refuses data that fills its buffer exactly, and
  neither overload assigns anything when an upload result answers
  (`download_overloads`).
-/

namespace Clibcdc

open Clibcdc.Automata Clibcdc.Memory Clibcdc.Parser Clibcdc.Reader

/-! ## `processCommand` -/

/-- How `processCommand` has ended, if it has. -/
def Client.commandEnd (client : Client) : Option (Except CdcException Unit) :=
  match client.phase, client.results with
  | .answering _ _, _ => some (.ok ())
  | .idle, [.error e] => some (.error e)
  | _, _ => none

/-- The steps up to the end of `processCommand`.  What is left of the schedule
comes later. -/
def untilCommandEnd (platform : Platform) :
    List SessionAction → Session → Option (Except CdcException Unit × CDCImplPrivate)
  | [], s => s.client.commandEnd.map (·, s.impl)
  | action :: schedule, s =>
    match s.client.commandEnd with
    | some result => some (result, s.impl)
    | none => ((session platform).step s action).bind (untilCommandEnd platform schedule)

/-- `processCommand`.  The schedule says what the operating system answers and
what the reader thread dispatches meanwhile.  There is no result when the
schedule ends before the command does. -/
def processCommand (platform : Platform) (schedule : List SessionAction) (self : CDCImplPrivate)
    (op : Operation) (cmd : Command) : Option (Except CdcException Unit × CDCImplPrivate) :=
  match checkReception self with
  | .error e => some (.error e, self)
  | .ok () =>
    match startSend platform self op cmd with
    | (.error e, self) => some (.error e, self)
    | (.ok phase, self) =>
      untilCommandEnd platform schedule { Session.start self with client := ⟨phase, [op], []⟩ }

/-! ## The overloads -/

/-- `upload` with a string. -/
def uploadString (platform : Platform) (schedule : List SessionAction) (self : CDCImplPrivate)
    (target : Byte) (data : UString) :
    Option (Except CdcException PMResponse × CDCImplPrivate) :=
  match verifyUpload target with
  | .error e => some (.error e, self)
  | .ok () =>
    match processCommand platform schedule self (.upload target data)
        ⟨.msgUploadDownload, target :: data⟩ with
    | none => none
    | some (.error e, self) => some (.error e, self)
    | some (.ok (), self) => some (getParsedPMResponse self.lastResponse.message, self)

/-- The string that a pointer is converted to: its length is where the first
zero byte is found. -/
def toUString (block : UString) : Reading UString :=
  (scan 0 block).bind fun size => copy block 0 size

/-- `upload` with a pointer to the beginning of a block.  `verifyUpload` takes a
string, so its argument is converted. -/
def uploadPointer (platform : Platform) (schedule : List SessionAction) (self : CDCImplPrivate)
    (target : Byte) (block : UString) (dlen : Nat) :
    Reading (Option (Except CdcException PMResponse × CDCImplPrivate)) :=
  (copy block 0 dlen).bind fun dataStr =>
  (toUString block).bind fun _data =>
  .pure (match verifyUpload target with
    | .error e => some (.error e, self)
    | .ok () =>
      match processCommand platform schedule self (.upload target dataStr)
          ⟨.msgUploadDownload, target :: dataStr⟩ with
      | none => none
      | some (.error e, self) => some (.error e, self)
      | some (.ok (), self) => some (getParsedPMResponse self.lastResponse.message, self))

/-- How a `download` with a string ends: `outputData` is what the output
holds then. -/
structure StringDownload where
  result : Except CdcException PMResponse
  outputData : UString
  self : CDCImplPrivate
  deriving DecidableEq

def downloadString (platform : Platform) (schedule : List SessionAction) (self : CDCImplPrivate)
    (target : Byte) (inputData outputData : UString) : Option StringDownload :=
  match verifyDownload target with
  | .error e => some ⟨.error e, outputData, self⟩
  | .ok () =>
    match processCommand platform schedule self (.download target inputData)
        ⟨.msgUploadDownload, target :: inputData⟩ with
    | none => none
    | some (.error e, self) => some ⟨.error e, outputData, self⟩
    | some (.ok (), self) =>
      if self.lastResponse.parseResult.msgType = .msgDownloadData then
        match getParsedPMData self.lastResponse.message with
        | .error e => some ⟨.error e, outputData, self⟩
        | .ok dataStr => some ⟨.ok .ok, dataStr, self⟩
      else some ⟨getParsedPMResponse self.lastResponse.message, outputData, self⟩

/-- How a `download` with a pointer ends: `outputData` is the block that the
output points to. -/
structure PointerDownload where
  result : Except CdcException PMResponse
  outputData : UString
  len : Nat
  self : CDCImplPrivate
  deriving DecidableEq

def dataTooLong (length outputDlen : Nat) : CdcException :=
  ⟨.receiveException, "Receive of download message failed. " ++
    "Data are longer than available data buffer - " ++ toString length ++ " >= " ++
    toString outputDlen ++ "!"⟩

/-- `download` with pointers.  `inputData` is the request of `inputDlen` bytes. -/
def downloadPointer (platform : Platform) (schedule : List SessionAction) (self : CDCImplPrivate)
    (target : Byte) (inputData outputData : UString) (outputDlen : Nat) :
    Option PointerDownload :=
  match verifyDownload target with
  | .error e => some ⟨.error e, outputData, 0, self⟩
  | .ok () =>
    match processCommand platform schedule self (.download target inputData)
        ⟨.msgUploadDownload, target :: inputData⟩ with
    | none => none
    | some (.error e, self) => some ⟨.error e, outputData, 0, self⟩
    | some (.ok (), self) =>
      if self.lastResponse.parseResult.msgType = .msgDownloadData then
        match getParsedPMData self.lastResponse.message with
        | .error e => some ⟨.error e, outputData, 0, self⟩
        | .ok dataStr =>
          if dataStr.length ≥ outputDlen then
            some ⟨.error (dataTooLong dataStr.length outputDlen), outputData, 0, self⟩
          else some ⟨.ok .ok, dataStr ++ outputData.drop dataStr.length, dataStr.length, self⟩
      else some ⟨getParsedPMResponse self.lastResponse.message, outputData, 0, self⟩

/-- Behind `processCommand`, `upload` is the answer of the client. -/
theorem uploadString_answer {platform : Platform} {schedule : List SessionAction}
    {self self' : CDCImplPrivate} {target : Byte} {data : UString}
    (htarget : verifyUpload target = .ok ())
    (hprocess : processCommand platform schedule self (.upload target data)
      ⟨.msgUploadDownload, target :: data⟩ = some (.ok (), self')) :
    ∃ result, uploadString platform schedule self target data = some (result, self') ∧
      (Operation.upload target data).answer self'.lastResponse = result.map .pmResponse := by
  simp only [uploadString, htarget, hprocess]
  exact ⟨_, rfl, rfl⟩

/-- Behind `processCommand`, `download` is the answer of the client. -/
theorem downloadString_answer {platform : Platform} {schedule : List SessionAction}
    {self self' : CDCImplPrivate} {target : Byte} {inputData : UString} (outputData : UString)
    (htarget : verifyDownload target = .ok ())
    (hprocess : processCommand platform schedule self (.download target inputData)
      ⟨.msgUploadDownload, target :: inputData⟩ = some (.ok (), self')) :
    ∃ string, downloadString platform schedule self target inputData outputData = some string ∧
      string.self = self' ∧
      (Operation.download target inputData).answer self'.lastResponse =
        string.result.map fun response => .downloaded response
          (if self'.lastResponse.parseResult.msgType = .msgDownloadData then
            some string.outputData else none) := by
  simp only [downloadString, Operation.answer, htarget, hprocess]
  by_cases htype : self'.lastResponse.parseResult.msgType = .msgDownloadData
  · simp only [if_pos htype]
    cases getParsedPMData self'.lastResponse.message with
    | error e => exact ⟨_, rfl, rfl, rfl⟩
    | ok dataStr => exact ⟨_, rfl, rfl, rfl⟩
  · simp only [if_neg htype]
    exact ⟨_, rfl, rfl, rfl⟩

/-! ## `upload` -/

/-- The conversion of a pointer stays within a bound when its scan does. -/
theorem toUString_within {block : UString} {bound : Nat} (hbound : bound ≤ block.length) :
    (toUString block).Within bound ↔ (scan 0 block).Within bound := by
  rw [toUString, Reading.within_bind]
  refine ⟨And.left, fun h => ⟨h, fun size hsize => ?_⟩⟩
  have hlt := h.2 size (scan_value_mem hsize)
  exact copy_within (by omega) (by omega)

section UploadPointer

variable (platform : Platform) (schedule : List SessionAction) (self : CDCImplPrivate)
  (target : Byte) {block : UString} {dlen : Nat}

/-- The pointer overload reads the bytes it is given, and up to the first zero
byte of the block. -/
theorem uploadPointer_within {bound : Nat} (hdlen : dlen ≤ bound) (hbound : bound ≤ block.length) :
    (uploadPointer platform schedule self target block dlen).Within bound ↔
      0 ∈ block.take bound := by
  have hcopy : copy block 0 dlen = ⟨List.range' 0 dlen, some (block.take dlen)⟩ :=
    copy_eq (by omega)
  have hwithin : (copy block 0 dlen).Within bound := copy_within (by omega) (by omega)
  rw [← scan_within, ← toUString_within hbound]
  constructor
  · intro hreads
    rw [uploadPointer, Reading.within_bind] at hreads
    have hconvert := hreads.2 (block.take dlen) (by rw [hcopy])
    exact (Reading.within_bind.mp hconvert).1
  · intro hconvert
    refine Reading.within_bind.mpr ⟨hwithin, fun _ _ => ?_⟩
    exact Reading.within_bind.mpr ⟨hconvert, fun _ _ => Reading.within_pure _ bound⟩

/-- Where the block has a zero byte, the pointer overload does what the string
overload does with the bytes it is given. -/
theorem uploadPointer_value (hdlen : dlen ≤ block.length) (hzero : 0 ∈ block) :
    (uploadPointer platform schedule self target block dlen).value =
      some (uploadString platform schedule self target (block.take dlen)) := by
  have hcopy : copy block 0 dlen = ⟨List.range' 0 dlen, some (block.take dlen)⟩ :=
    copy_eq (by omega)
  have hconvert : (toUString block).Within block.length := by
    rw [toUString_within (Nat.le_refl _), scan_within, List.take_length]
    exact hzero
  obtain ⟨data, hdata⟩ := Option.isSome_iff_exists.mp hconvert.1
  rw [uploadPointer, Reading.bind_of_value (congrArg Reading.value hcopy),
    Reading.bind_of_value hdata]
  rfl

end UploadPointer

/-- The pointer overload of `upload` does what the string overload does with
the bytes it is given, and reads nothing else, when one of these bytes is zero,
and only then. -/
theorem upload_overloads (platform : Platform) (schedule : List SessionAction)
    (self : CDCImplPrivate) (target : Byte) {block : UString} {dlen : Nat}
    (hdlen : dlen ≤ block.length) :
    ((uploadPointer platform schedule self target block dlen).Within dlen ∧
      (uploadPointer platform schedule self target block dlen).value =
        some (uploadString platform schedule self target (block.take dlen))) ↔
      0 ∈ block.take dlen := by
  have hreads := uploadPointer_within platform schedule self target (Nat.le_refl dlen) hdlen
  constructor
  · rintro ⟨hwithin, -⟩
    exact hreads.mp hwithin
  · intro hzero
    exact ⟨hreads.mpr hzero,
      uploadPointer_value platform schedule self target hdlen (List.mem_of_mem_take hzero)⟩

theorem upload_overloads_two :
    (uploadPointer .linux [] (.init (.new listedOnly)) 0x80 [1, 0, 2] 2).Within 2 ∧
      (uploadPointer .linux [] (.init (.new listedOnly)) 0x80 [1, 0, 2] 2).value =
        some (uploadString .linux [] (.init (.new listedOnly)) 0x80 [1, 0]) :=
  (@upload_overloads .linux [] (.init (.new listedOnly)) 0x80 [1, 0, 2] 2 (by decide)).mpr
    (by decide)

/-- A block of one byte that is not zero: the conversion reads past its end. -/
theorem upload_reads_past_block :
    ∃ (block : UString) (dlen : Nat), dlen ≤ block.length ∧
      ¬ (uploadPointer .linux [] (.init (.new listedOnly)) 0x80 block dlen).Within dlen ∧
      (uploadPointer .linux [] (.init (.new listedOnly)) 0x80 block dlen).value = none :=
  ⟨[1], 1, by decide, fun h => absurd h.1 (by decide), by decide⟩

/-! ## What `processCommand` leaves -/

variable {platform : Platform}

/-- A step inside `processCommand` leads on, or it is the one with which
`processCommand` ends. -/
theorem Client.Steps.commandEnd {self self' : CDCImplPrivate} {client client' : Client}
    {action : ClientAction} {op : Operation} {cmd : Command}
    (h : Steps self client platform action self' client')
    (hcurrent : client.phase.current = some (op, cmd)) (hgoes : client.commandEnd = none)
    (hresults : client.results = []) :
    (client'.phase.current = some (op, cmd) ∧ client'.commandEnd = none ∧ client'.results = []) ∨
      (∃ e, client'.commandEnd = some (.error e)) ∨
      client'.commandEnd = some (.ok ()) ∧ checkResponse cmd self'.lastResponse = .ok () := by
  have hfails : ∀ e, (client.finish (.error e)).commandEnd = some (.error e) := by
    intro e
    simp [Client.commandEnd, Client.finish, hresults]
  cases h with
  | refused hphase | started hphase | reset hphase =>
    rw [hphase] at hcurrent
    cases hcurrent
  | @written _ op' cmd' dataToWrite writeResult hphase hwritten =>
    rw [hphase] at hcurrent
    refine .inl ⟨by rw [current_sendLoop]; exact hcurrent, ?_, hresults⟩
    simp only [Client.commandEnd, sendLoop]
    split_ifs <;> rfl
  | wrote hphase htext =>
    rw [hphase] at hcurrent
    exact .inl ⟨hcurrent, rfl, hresults⟩
  | signalled hphase hevent =>
    rw [hphase] at hcurrent
    exact .inl ⟨hcurrent, rfl, hresults⟩
  | sendFailed | writeFailed | waitFailed | rejected => exact .inr (.inl ⟨_, hfails _⟩)
  | accepted hphase hcheck =>
    rw [hphase] at hcurrent
    obtain ⟨rfl, rfl⟩ := Prod.mk.inj (Option.some.inj hcurrent)
    exact .inr (.inr ⟨rfl, hcheck⟩)
  | answered hphase => simp [Client.commandEnd, hphase] at hgoes

theorem untilCommandEnd_of_end {s : Session} {result : Except CdcException Unit}
    (h : s.client.commandEnd = some result) (schedule : List SessionAction) :
    untilCommandEnd platform schedule s = some (result, s.impl) := by
  cases schedule <;> simp [untilCommandEnd, h]

/-- Where `processCommand` returns, the last response is a reply that has passed
its check. -/
theorem untilCommandEnd_ok {schedule : List SessionAction} {s : Session} {op : Operation}
    {cmd : Command} {self' : CDCImplPrivate} (hcurrent : s.client.phase.current = some (op, cmd))
    (hgoes : s.client.commandEnd = none) (hresults : s.client.results = [])
    (hs : IsReply s.impl.lastResponse) (hreplies : ∀ action ∈ schedule, DispatchesReply action)
    (h : untilCommandEnd platform schedule s = some (.ok (), self')) :
    IsReply self'.lastResponse ∧ checkResponse cmd self'.lastResponse = .ok () := by
  induction schedule generalizing s with
  | nil => simp [untilCommandEnd, hgoes] at h
  | cons action schedule ih =>
    rw [untilCommandEnd, hgoes] at h
    obtain ⟨t, hstep, hrest⟩ := Option.bind_eq_some_iff.mp h
    have ht := isReply_step hs (hreplies action List.mem_cons_self) hstep
    have hlater : ∀ a ∈ schedule, DispatchesReply a := fun a ha =>
      hreplies a (List.mem_cons_of_mem action ha)
    cases action with
    | dispatch parsedMessage =>
      obtain ⟨-, hclient, -⟩ := session_dispatch hstep
      rw [← hclient] at hcurrent hgoes hresults
      exact ih hcurrent hgoes hresults ht hlater hrest
    | client action =>
      obtain ⟨hsteps, -⟩ := session_client hstep
      rcases hsteps.commandEnd hcurrent hgoes hresults with
        ⟨hcurrent', hgoes', hresults'⟩ | ⟨e, hend⟩ | ⟨hend, hcheck⟩
      · exact ih hcurrent' hgoes' hresults' ht hlater hrest
      · rw [untilCommandEnd_of_end hend] at hrest
        cases hrest
      · rw [untilCommandEnd_of_end hend] at hrest
        obtain rfl := (Prod.mk.inj (Option.some.inj hrest)).2
        exact ⟨ht, hcheck⟩

/-- A command whose sending has started. -/
theorem startSend_ok {self self' : CDCImplPrivate} {op : Operation} {cmd : Command}
    {phase : ClientPhase} (h : startSend platform self op cmd = (.ok phase, self')) :
    phase.current = some (op, cmd) ∧ (⟨phase, [op], []⟩ : Client).commandEnd = none ∧
      self'.lastResponse = self.lastResponse := by
  cases platform with
  | linux =>
    simp only [startSend] at h
    cases htext : commandText cmd with
    | error e => simp [commandToBuffer, htext] at h
    | ok text =>
      obtain ⟨buffer, bufferLen, hbuffer, htake⟩ := commandToBuffer_ok self htext
      simp only [hbuffer, htake, Prod.mk.injEq, Except.ok.injEq] at h
      obtain ⟨rfl, rfl⟩ := h
      refine ⟨current_sendLoop _ _ _, ?_, rfl⟩
      simp only [Client.commandEnd, sendLoop]
      split_ifs <;> rfl
  | windows =>
    obtain ⟨hphase, rfl⟩ := Prod.mk.inj h
    obtain rfl := Except.ok.inj hphase
    exact ⟨rfl, rfl, rfl⟩

theorem processCommand_ok {schedule : List SessionAction} {self self' : CDCImplPrivate}
    {op : Operation} {cmd : Command} (hreply : IsReply self.lastResponse)
    (hreplies : ∀ action ∈ schedule, DispatchesReply action)
    (h : processCommand platform schedule self op cmd = some (.ok (), self')) :
    IsReply self'.lastResponse ∧ checkResponse cmd self'.lastResponse = .ok () := by
  unfold processCommand at h
  cases hreception : checkReception self with
  | error e => simp [hreception] at h
  | ok _ =>
    rw [hreception] at h
    cases hsend : startSend platform self op cmd with
    | mk result self₁ =>
      cases result with
      | error e => simp [hsend] at h
      | ok phase =>
        simp only [hsend] at h
        obtain ⟨hcurrent, hgoes, hresponse⟩ := startSend_ok hsend
        exact untilCommandEnd_ok hcurrent hgoes rfl (by rw [← hresponse] at hreply; exact hreply)
          hreplies h

/-! ## `download` -/

/-- Two calls that end with the same value, or with exceptions of one class. -/
def SameKind : Except CdcException PMResponse → Except CdcException PMResponse → Prop
  | .ok response, .ok response' => response = response'
  | .error e, .error e' => e.identity = e'.identity
  | _, _ => False

theorem SameKind.refl (result : Except CdcException PMResponse) : SameKind result result := by
  cases result <;> rfl

/-- What the overloads of `download` should have in common when the pointer
overload is given a block that holds `before` and a capacity of `outputDlen`. -/
structure OverloadsAgree (before : UString) (outputDlen : Nat) (string : StringDownload)
    (pointer : PointerDownload) : Prop where
  state : string.self = pointer.self
  payload : string.result = .ok .ok → ∃ payload,
    string.self.lastResponse = (Reply.downloadData payload).message ∧ string.outputData = payload ∧
      (payload.length ≤ outputDlen → pointer.result = .ok .ok ∧ pointer.len = payload.length ∧
        pointer.outputData = payload ++ before.drop payload.length) ∧
      (outputDlen < payload.length → (∃ e, pointer.result = .error e ∧
        e.identity = .receiveException) ∧ pointer.len = 0 ∧ pointer.outputData = before)
  other : string.result ≠ .ok .ok → SameKind string.result pointer.result

/-- The response is no upload result that says OK, and no download data that
fills the capacity exactly. -/
def FitsOverloads (outputDlen : Nat) (response : ParsedMessage) : Prop :=
  response ≠ (Reply.uploadResult .ok).message ∧
    ∀ payload, response = (Reply.downloadData payload).message → payload.length ≠ outputDlen

/-- What answers an upload or download command. -/
theorem accepted_reply {data : UString} {response : ParsedMessage} (hreply : IsReply response)
    (hcheck : checkResponse ⟨.msgUploadDownload, data⟩ response = .ok ()) :
    (∃ result, response = (Reply.uploadResult result).message) ∨
      ∃ payload, response = (Reply.downloadData payload).message := by
  have htype := checkResponse_ok.mp hcheck
  rcases hreply with herror | ⟨reply, rfl⟩
  · rw [herror] at htype
    simp at htype
  have hcases := reply.of_msgType
  rcases htype with htype | ⟨-, htype, -⟩
  · rw [show reply.msgType = .msgUploadDownload from htype] at hcases
    obtain ⟨result, rfl⟩ := hcases
    exact .inl ⟨result, rfl⟩
  · rw [show reply.msgType = .msgDownloadData from htype] at hcases
    obtain ⟨payload, rfl⟩ := hcases
    exact .inr ⟨payload, rfl⟩

theorem uploadResult_inj {result result' : PMResponse}
    (h : (Reply.uploadResult result).message = (Reply.uploadResult result').message) :
    result = result' := by
  have hparsed := congrArg (fun m => getParsedPMResponse m.message) h
  simp only [Reply.message, Reply.bytes, getParsedPMResponse_eq] at hparsed
  exact Except.ok.inj hparsed

theorem downloadData_inj {payload payload' : UString}
    (h : (Reply.downloadData payload).message = (Reply.downloadData payload').message) :
    payload = payload' := by
  have hparsed := congrArg (fun m => getParsedPMData m.message) h
  simp only [Reply.message, Reply.bytes, getParsedPMData_eq] at hparsed
  exact Except.ok.inj hparsed

theorem uploadResult_ne_downloadData {result : PMResponse} {payload : UString} :
    (Reply.uploadResult result).message ≠ (Reply.downloadData payload).message := by
  intro h
  cases congrArg (·.parseResult.msgType) h

/-- The overloads agree on an upload result, unless it says OK. -/
theorem overloads_uploadResult {self : CDCImplPrivate} {result : PMResponse}
    {outputData before : UString} {outputDlen : Nat}
    (hresponse : self.lastResponse = (Reply.uploadResult result).message) :
    OverloadsAgree before outputDlen ⟨.ok result, outputData, self⟩ ⟨.ok result, before, 0, self⟩ ↔
      FitsOverloads outputDlen self.lastResponse := by
  rw [FitsOverloads, hresponse]
  by_cases hok : result = .ok
  · subst hok
    refine iff_of_false (fun h => ?_) (fun h => h.1 rfl)
    obtain ⟨payload, hpayload, -⟩ := h.payload rfl
    exact uploadResult_ne_downloadData (hresponse.symm.trans hpayload)
  · refine iff_of_true ⟨rfl, fun h => absurd (Except.ok.inj h) hok, fun _ => .refl _⟩
      ⟨fun h => hok (uploadResult_inj h), fun payload h => absurd h uploadResult_ne_downloadData⟩

/-- The overloads agree on download data, unless it fills the capacity. -/
theorem overloads_downloadData {self : CDCImplPrivate} {payload before : UString}
    {outputDlen : Nat} {pointer : PointerDownload}
    (hresponse : self.lastResponse = (Reply.downloadData payload).message)
    (hpointer : pointer = if payload.length ≥ outputDlen then
        ⟨.error (dataTooLong payload.length outputDlen), before, 0, self⟩
      else ⟨.ok .ok, payload ++ before.drop payload.length, payload.length, self⟩) :
    OverloadsAgree before outputDlen ⟨.ok .ok, payload, self⟩ pointer ↔
      FitsOverloads outputDlen self.lastResponse := by
  subst hpointer
  rw [FitsOverloads, hresponse]
  have hfits : ∀ payload', (Reply.downloadData payload).message =
      (Reply.downloadData payload').message → payload'.length = payload.length := by
    intro payload' h
    rw [downloadData_inj h]
  rcases Nat.lt_trichotomy payload.length outputDlen with hlt | heq | hgt
  · rw [if_neg (by omega)]
    refine iff_of_true ⟨rfl, fun _ => ⟨payload, hresponse, rfl, fun _ => ⟨rfl, rfl, rfl⟩, ?_⟩,
      fun h => absurd rfl h⟩ ⟨uploadResult_ne_downloadData.symm, fun payload' h => ?_⟩
    · intro hlong
      omega
    · rw [hfits payload' h]
      omega
  · rw [if_pos (by omega)]
    refine iff_of_false (fun h => ?_) (fun h => h.2 payload rfl heq)
    obtain ⟨payload', hpayload, -, hshort, -⟩ := h.payload rfl
    have hlen := hfits payload' (hresponse.symm.trans hpayload)
    cases (hshort (by omega)).1
  · rw [if_pos (by omega)]
    refine iff_of_true
      ⟨rfl, fun _ => ⟨payload, hresponse, rfl, ?_, fun _ => ⟨⟨_, rfl, rfl⟩, rfl, rfl⟩⟩,
        fun h => absurd rfl h⟩
      ⟨uploadResult_ne_downloadData.symm, fun payload' h => ?_⟩
    · intro hshort
      omega
    · rw [hfits payload' h]
      omega

/-- The overloads of `download` agree when the response that answers is no
upload result that says OK, and no download data as long as the capacity, and
only then. -/
theorem download_overloads {schedule : List SessionAction} {self self' : CDCImplPrivate}
    {target : Byte} {inputData outputData before : UString} {outputDlen : Nat}
    {processed : Except CdcException Unit} (htarget : target &&& 0x80 = 0)
    (hreply : IsReply self.lastResponse) (hreplies : ∀ action ∈ schedule, DispatchesReply action)
    (hprocess : processCommand platform schedule self (.download target inputData)
      ⟨.msgUploadDownload, target :: inputData⟩ = some (processed, self')) :
    ∃ string pointer,
      downloadString platform schedule self target inputData outputData = some string ∧
      downloadPointer platform schedule self target inputData before outputDlen = some pointer ∧
      (OverloadsAgree before outputDlen string pointer ↔
        (processed = .ok () → FitsOverloads outputDlen self'.lastResponse)) := by
  have hverify : verifyDownload target = .ok () := by
    rw [verifyDownload, if_neg (not_not.mpr htarget)]
  simp only [downloadString, downloadPointer, hverify, hprocess]
  cases processed with
  | error e =>
    refine ⟨_, _, rfl, rfl, iff_of_true ⟨rfl, ?_, fun _ => .refl _⟩ ?_⟩
    · simp
    · intro h
      cases h
  | ok _ =>
    obtain ⟨hlast, hcheck⟩ := processCommand_ok hreply hreplies hprocess
    simp only [true_imp_iff]
    rcases accepted_reply hlast hcheck with ⟨result, hresponse⟩ | ⟨payload, hresponse⟩
    · have hparsed : getParsedPMResponse self'.lastResponse.message = .ok result := by
        rw [hresponse]
        exact getParsedPMResponse_eq result
      have htype : self'.lastResponse.parseResult.msgType ≠ .msgDownloadData := by
        rw [hresponse]
        intro h
        cases h
      rw [if_neg htype, if_neg htype, hparsed]
      exact ⟨_, _, rfl, rfl, overloads_uploadResult hresponse⟩
    · have hparsed : getParsedPMData self'.lastResponse.message = .ok payload := by
        rw [hresponse]
        exact getParsedPMData_eq payload
      have htype : self'.lastResponse.parseResult.msgType = .msgDownloadData := by
        rw [hresponse]
        rfl
      simp only [if_pos htype, hparsed]
      refine ⟨_, _, rfl, (apply_ite some _ _ _).symm, overloads_downloadData hresponse rfl⟩

/-- The schedule of a download that sends five bytes and is answered. -/
private def answeredBy (reply : Reply) : List SessionAction :=
  [.client (.send (.written 5)), .dispatch reply.message, .client (.wait .signalled),
    .client .check]

private theorem answeredBy_processed {reply : Reply} {last : ParsedMessage}
    (h : (processCommand .linux (answeredBy reply) (.init (.new listedOnly)) (.download 0 [])
      ⟨.msgUploadDownload, [0]⟩).map (fun ended => (ended.1.isOk, ended.2.lastResponse)) =
        some (true, last)) :
    ∃ self', processCommand .linux (answeredBy reply) (.init (.new listedOnly)) (.download 0 [])
      ⟨.msgUploadDownload, [0]⟩ = some (.ok (), self') ∧ self'.lastResponse = last := by
  obtain ⟨⟨processed, self'⟩, hprocess, hend⟩ := Option.map_eq_some_iff.mp h
  obtain ⟨hok, hlast⟩ := Prod.mk.inj hend
  cases processed with
  | error e => cases hok
  | ok _ => exact ⟨self', hprocess, hlast⟩

private theorem init_isReply : IsReply (CDCImplPrivate.init (.new listedOnly)).lastResponse :=
  .inl rfl

private theorem answeredBy_replies (reply : Reply) :
    ∀ action ∈ answeredBy reply, DispatchesReply action := by
  simp [answeredBy, DispatchesReply]

/-- One byte is downloaded into a block of two. -/
theorem download_overloads_fits :
    ∃ string pointer,
      downloadString .linux (answeredBy (.downloadData [7])) (.init (.new listedOnly)) 0 [] [] =
        some string ∧
      downloadPointer .linux (answeredBy (.downloadData [7])) (.init (.new listedOnly)) 0 [] [0, 0]
        2 = some pointer ∧
      OverloadsAgree [0, 0] 2 string pointer := by
  obtain ⟨self', hprocess, hlast⟩ := @answeredBy_processed (.downloadData [7])
    (Reply.downloadData [7]).message (by decide)
  obtain ⟨string, pointer, hstring, hpointer, hagree⟩ :=
    @download_overloads .linux _ _ self' 0 [] [] [0, 0] 2 _ (by decide) init_isReply
      (answeredBy_replies _) hprocess
  refine ⟨string, pointer, hstring, hpointer, hagree.mpr fun _ => ?_⟩
  rw [hlast]
  exact ⟨uploadResult_ne_downloadData.symm, fun payload h => by rw [← downloadData_inj h]; decide⟩

/-- One byte does not fit into a block of one, and an upload result that says OK
leaves the output of the string overload as it was. -/
theorem download_overloads_disagree :
    (∃ string pointer,
      downloadString .linux (answeredBy (.downloadData [7])) (.init (.new listedOnly)) 0 [] [] =
        some string ∧
      downloadPointer .linux (answeredBy (.downloadData [7])) (.init (.new listedOnly)) 0 [] [0] 1 =
        some pointer ∧
      string.result = .ok .ok ∧ string.outputData = [7] ∧
      pointer.result = .error (dataTooLong 1 1) ∧ ¬ OverloadsAgree [0] 1 string pointer) ∧
    ∃ string,
      downloadString .linux (answeredBy (.uploadResult .ok)) (.init (.new listedOnly)) 0 [] [9] =
        some string ∧
      string.result = .ok .ok ∧ string.outputData = [9] := by
  have hstring : (downloadString .linux (answeredBy (.downloadData [7])) (.init (.new listedOnly)) 0
      [] []).map (fun d => (d.result, d.outputData)) = some (.ok .ok, [7]) := by
    decide
  have hpointer : (downloadPointer .linux (answeredBy (.downloadData [7]))
      (.init (.new listedOnly)) 0 [] [0] 1).map (·.result) = some (.error (dataTooLong 1 1)) := by
    decide
  have hupload : (downloadString .linux (answeredBy (.uploadResult .ok)) (.init (.new listedOnly)) 0
      [] [9]).map (fun d => (d.result, d.outputData)) = some (.ok .ok, [9]) := by
    decide
  obtain ⟨string, hstring, hs⟩ := Option.map_eq_some_iff.mp hstring
  obtain ⟨pointer, hpointer, hp⟩ := Option.map_eq_some_iff.mp hpointer
  obtain ⟨upload, hupload, hu⟩ := Option.map_eq_some_iff.mp hupload
  obtain ⟨hok, hdata⟩ := Prod.mk.inj hs
  obtain ⟨huploadOk, huploadData⟩ := Prod.mk.inj hu
  refine ⟨⟨string, pointer, hstring, hpointer, hok, hdata, hp, fun hagree => ?_⟩,
    upload, hupload, huploadOk, huploadData⟩
  obtain ⟨payload, -, hpayload, hshort, -⟩ := hagree.payload hok
  have hlen : payload.length = 1 := by rw [← hpayload, hdata]; rfl
  cases hp.symm.trans (hshort (by omega)).1

end Clibcdc
