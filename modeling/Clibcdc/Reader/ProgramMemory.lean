import Clibcdc.Command
import Clibcdc.Reader.ModuleInfo
import Clibcdc.Reader.Resync

/-!
# Replies to upload and download on the way through the reader

Both replies begin with `<PM:`.  The parser takes a buffer of 7 or 9 bytes for
the result of an upload, and any other for download data, from the header to
the last byte of the buffer.

* `download_delivered`: download data arrive whole when the buffer is not
  processed before its last byte has been read, and only then.
* `upload_delivered`: the result of an upload is dispatched as it was sent when
  nothing follows it in the buffer, and only then.
-/

namespace Clibcdc.Reader

open Clibcdc.Automata Clibcdc.Parser

/-! ## The item at the front -/

section Look

variable (parser : CDCMessageParserPrivate) {w : UString}

theorem repair_pmResp (w : UString) : repair (ascii "<PM:" ++ w) = ascii "<PM:" ++ w := rfl

theorem look_pmResp_wait (hlen : w.length ≤ 1) :
    (lexer parser.stateType).look (ascii "<PM:" ++ w) = none := by
  have hverdict := verdict_pmResp_eq parser.stateType w
  rw [if_pos hlen, ← repair_pmResp] at hverdict
  exact look_eq_none.mpr hverdict

/-- Something is taken from a buffer that contains a carriage return and more
than one byte behind the header. -/
theorem look_pmResp_some (hlen : 2 ≤ w.length) (hcr : cr ∈ w) :
    ∃ item, (lexer parser.stateType).look (ascii "<PM:" ++ w) = some item := by
  rw [← Option.ne_none_iff_exists', Ne, look_eq_none, repair_pmResp, verdict_pmResp_eq,
    if_neg (by omega)]
  split_ifs with hsize hlast
  · rw [uploadVerdict]
    cases hscan : plainScan 80 4 w with
    | ended s => exact absurd hcr (uploadScan_no_cr hscan)
    | stuck k => simp
    | stopped s k => simp
  · simp
  · simp

/-- What a beginning that contains a carriage return is taken for depends on
whether more than one byte stands behind the header. -/
theorem look_take_pmResp {n : Nat} (hlen : 2 ≤ w.length)
    (hcr : hasCr ((ascii "<PM:" ++ w).take n) = true) :
    (lexer parser.stateType).look ((ascii "<PM:" ++ w).take n) = none ↔ n < 6 := by
  obtain ⟨-, htake⟩ := take_header rfl (by decide) hcr
  rw [htake] at hcr ⊢
  have hbehind : cr ∈ w.take (n - 4) :=
    (List.mem_append.mp (mem_of_hasCr hcr)).resolve_left (by decide)
  constructor
  · intro hlook
    by_contra hlong
    have htwo : 2 ≤ (w.take (n - 4)).length := by
      rw [List.length_take]
      omega
    obtain ⟨item, hitem⟩ := look_pmResp_some parser htwo hbehind
    rw [hlook] at hitem
    cases hitem
  · intro hshort
    apply look_pmResp_wait
    rw [List.length_take]
    omega

/-- A buffer that ends with a carriage return and has not the size of an upload
result is taken for download data. -/
theorem look_downloadData {data : UString} (h0 : data.length ≠ 0) (h2 : data.length ≠ 2)
    (h4 : data.length ≠ 4) :
    (lexer parser.stateType).look (ascii "<PM:" ++ (data ++ [cr])) =
      some (.message ⟨ascii "<PM:" ++ (data ++ [cr]),
        ⟨parser.stateType 97, .parseOk, data.length + 4⟩⟩, []) := by
  have hlen : (data ++ [cr]).length = data.length + 1 := by simp
  have hall : (ascii "<PM:" ++ (data ++ [cr])).length = data.length + 4 + 1 := by simp [ascii]
  have hverdict := verdict_pmResp_eq parser.stateType (data ++ [cr])
  rw [if_neg (by omega), if_neg (by omega), if_pos (by simp), hlen, ← repair_pmResp] at hverdict
  rw [look_accept hverdict, repair_pmResp, List.take_of_length_le (by omega),
    List.drop_of_length_le (by omega)]

theorem look_uploadResult (response : PMResponse) :
    (lexer parser.stateType).look (Reply.uploadResult response).bytes =
      some (.message (Reply.uploadResult response).message, []) := by
  have hbytes : (Reply.uploadResult response).bytes = ascii "<PM:" ++ (response.text ++ [cr]) := by
    simp [Reply.bytes]
  have hsize : (response.text ++ [cr]).length = 3 ∨ (response.text ++ [cr]).length = 5 := by
    cases response <;> decide
  have hall : (ascii "<PM:" ++ (response.text ++ [cr])).length = response.text.length + 4 + 1 := by
    simp [ascii]
  have hverdict := verdict_pmResp_eq parser.stateType (response.text ++ [cr])
  have htype : parser.stateType (uploadState response) = .msgUploadDownload :=
    @replyState_type parser (.uploadResult response) (by simp)
  rw [if_neg (by omega), if_pos hsize, uploadVerdict, uploadScan_text, ← repair_pmResp] at hverdict
  simp only [htype] at hverdict
  rw [Reply.message, hbytes, look_accept hverdict, repair_pmResp, hall,
    List.take_of_length_le (by omega), List.drop_of_length_le (by omega)]
  rfl

end Look

/-! ## Download data -/

/-- The frame of download data. -/
theorem downloadData_bytes (data : UString) :
    (Reply.downloadData data).bytes = ascii "<PM:" ++ (data ++ [cr]) := by
  simp [Reply.bytes]

/-- A message that carries download data is the frame of the data. -/
theorem look_carries (parser : CDCMessageParserPrivate) {w rest data : UString}
    {parsedMessage : ParsedMessage}
    (h : (lexer parser.stateType).look w = some (.message parsedMessage, rest))
    (htype : parsedMessage.parseResult.msgType = .msgDownloadData)
    (hdata : getParsedPMData parsedMessage.message = .ok data) :
    (Reply.downloadData data).bytes.length ≤ w.length ∧
      parser.stateType 97 = .msgDownloadData := by
  obtain ⟨reply, hw, rfl⟩ := look_message h
  have hreply : ∃ data', reply = .downloadData data' := by
    by_contra hno
    have hlisted := replyState_type parser fun data' h => hno ⟨data', h⟩
    rw [hlisted] at htype
    cases reply with
    | ofFrame frame => cases frame <;> cases htype
    | downloadData data' => exact hno ⟨data', rfl⟩
    | _ => cases htype
  obtain ⟨data', rfl⟩ := hreply
  have heq := getParsedPMData_eq data'
  rw [← Reply.bytes] at heq
  obtain rfl := Except.ok.inj (heq.symm.trans hdata)
  have hlen := congrArg List.length hw
  rw [repair_length, List.length_append] at hlen
  exact ⟨by omega, htype⟩

/-- The items are one message, which carries the download data. -/
def Carries (data : UString) (items : List Item) : Prop :=
  ∃ parsedMessage, items = [.message parsedMessage] ∧
    parsedMessage.parseResult.msgType = .msgDownloadData ∧
    getParsedPMData parsedMessage.message = .ok data

section Feed

variable (parser : CDCMessageParserPrivate) {data : UString} {n : Nat}

theorem downloadStream_length (data : UString) :
    (ascii "<PM:" ++ (data ++ [cr])).length = data.length + 5 := by
  simp [ascii]

/-- A part of the frame does not carry the data. -/
theorem not_carries_part {item : Item} {rest : UString} (hn : n < data.length + 5)
    (hlook : (lexer parser.stateType).look ((ascii "<PM:" ++ (data ++ [cr])).take n) =
      some (item, rest)) (items : List Item) : ¬ Carries data (item :: items) := by
  intro hcarries
  obtain ⟨parsedMessage, hitems, htype, hdata⟩ := hcarries
  obtain ⟨rfl, -⟩ := List.cons.inj hitems
  have hlong := (look_carries parser hlook htype hdata).1
  rw [downloadData_bytes, downloadStream_length, List.length_take] at hlong
  omega

/-- The whole frame carries the data, when it has the type of download data. -/
theorem carries_whole :
    Carries data [.message ⟨ascii "<PM:" ++ (data ++ [cr]),
      ⟨parser.stateType 97, .parseOk, data.length + 4⟩⟩] ↔
        parser.stateType 97 = .msgDownloadData := by
  constructor
  · intro hcarries
    obtain ⟨parsedMessage, hitems, htype, -⟩ := hcarries
    obtain ⟨hmessage, -⟩ := List.cons.inj hitems
    obtain rfl := Item.message.inj hmessage
    exact htype
  · intro htype
    refine ⟨_, rfl, htype, ?_⟩
    rw [← List.append_assoc]
    exact getParsedPMData_eq data

/-- Download data arrive whole when the trigger waits for their last byte, once
more than a byte behind the header has been read. -/
theorem feed_downloadData {trigger : UString → Bool}
    (htrigger : ∀ w, trigger w = true → hasCr w = true) (h0 : data.length ≠ 0)
    (h2 : data.length ≠ 2) (h4 : data.length ≠ 4)
    (hlast : trigger (ascii "<PM:" ++ (data ++ [cr])) = true) {reads : List UString}
    (hcut : reads.flatten = ascii "<PM:" ++ (data ++ [cr])) :
    Carries data ((lexer parser.stateType).feed trigger [] reads).1 ↔
      parser.stateType 97 = .msgDownloadData ∧
        ∀ n, Lexer.Cut [] reads n → 6 ≤ n → n < data.length + 5 →
          trigger ((ascii "<PM:" ++ (data ++ [cr])).take n) = false := by
  have hlen := downloadStream_length data
  have hbehind : 2 ≤ (data ++ [cr]).length := by
    rw [List.length_append, List.length_singleton]
    omega
  have hall : (ascii "<PM:" ++ (data ++ [cr])).take (data.length + 5) =
      ascii "<PM:" ++ (data ++ [cr]) := List.take_of_length_le (by omega)
  have hwhole := look_downloadData parser h0 h2 h4
  have hend := Lexer.cut_length [] reads
  rw [List.nil_append, hcut, hlen] at hend
  have hnorm : ∀ n, (lexer parser.stateType).norm ((ascii "<PM:" ++ (data ++ [cr])).take n) =
      (ascii "<PM:" ++ (data ++ [cr])).take n := fun n => repair_of_head _ n
  rcases Lexer.feed_cut trigger (w := []) hnorm hcut (fun _ => Lexer.look_nil _) with
    ⟨-, hwaits⟩ | ⟨n, post, item, rest, hn, htaken, hlook, hearly, hpost, -, hfeed⟩
  · have hnothing := hwaits _ hend (by rwa [hall])
    rw [hall, hwhole] at hnothing
    cases hnothing
  · have hsix : 6 ≤ n := by
      by_contra hshort
      have hnone := (look_take_pmResp parser hbehind (htrigger _ htaken)).mpr (by omega)
      rw [hlook] at hnone
      cases hnone
    have hle := hn.le
    rw [List.nil_append, hcut, hlen] at hle
    by_cases hpart : n < data.length + 5
    · -- a part of the frame is taken
      rw [hfeed, Lexer.drain_of_some _ hlook]
      refine iff_of_false (not_carries_part parser hpart hlook _) (fun h => ?_)
      rw [h.2 n hn hsix hpart] at htaken
      cases htaken
    · -- the whole frame is taken
      obtain rfl : n = data.length + 5 := by omega
      have hnothing : post.flatten = [] := by
        rw [hpost]
        exact List.drop_of_length_le (by omega)
      rw [hall] at hfeed
      rw [hfeed, Lexer.drain_of_some _ hwhole, Lexer.drain_nil]
      show Carries data (_ :: ((lexer parser.stateType).feed trigger [] post).1) ↔ _
      rw [Lexer.feed_nil trigger rfl hnothing, carries_whole]
      refine ⟨fun htype => ⟨htype, fun m hm hsix hlt => ?_⟩, fun h => h.1⟩
      by_contra htake
      rw [Bool.not_eq_false] at htake
      have hshort := (look_take_pmResp parser hbehind (htrigger _ htake)).mp
        (hearly m hm hlt htake)
      omega

end Feed

/-! ## The two readers -/

/-- What the reader does with a message that carries the download data, and
what the call of `download` makes of it. -/
def Downloads (data : UString) (effects : List Effect) : Prop :=
  ∃ parsedMessage, effects =
      [.dispatched parsedMessage, .responseStored parsedMessage, .newMsgSignalled] ∧
    parsedMessage.parseResult.msgType = .msgDownloadData ∧
    getParsedPMData parsedMessage.message = .ok data ∧
    ∀ target inputData, (Operation.download target inputData).answer parsedMessage =
      .ok (.downloaded .ok (some data))

theorem downloads_iff {data : UString} {items : List Item} {listener : Bool} :
    Downloads data (items.flatMap (Item.effects listener)) ↔ Carries data items := by
  constructor
  · rintro ⟨parsedMessage, heffects, htype, hdata, -⟩
    refine ⟨parsedMessage, ?_, htype, hdata⟩
    have hone : dispatchedMessages (items.flatMap (Item.effects listener)) = [parsedMessage] ∧
        DropsNothing (items.flatMap (Item.effects listener)) := by
      rw [heffects]
      exact ⟨rfl, by simp [DropsNothing]⟩
    exact effects_messages_iff.mp hone
  · rintro ⟨parsedMessage, rfl, htype, hdata⟩
    refine ⟨parsedMessage, ?_, htype, hdata, fun target inputData => ?_⟩
    · simp [Item.effects, htype]
    · simp [Operation.answer, htype, hdata, Except.map]

/-- In pieces of at most one byte every position is a cut. -/
theorem cut_of_bytes {pieces : List UString} (hpieces : ∀ piece ∈ pieces, piece.length ≤ 1)
    {w : UString} {n : Nat} (hw : w.length ≤ n) (hn : n ≤ (w ++ pieces.flatten).length) :
    Lexer.Cut w pieces n := by
  induction pieces generalizing w with
  | nil =>
    rw [List.flatten_nil, List.append_nil] at hn
    exact ⟨[], List.nil_prefix, by simp; omega⟩
  | cons piece pieces ih =>
    rw [Lexer.cut_cons]
    by_cases heq : n = w.length
    · exact .inl heq
    · right
      have hone := hpieces piece List.mem_cons_self
      refine ih (fun p hp => hpieces p (List.mem_cons_of_mem _ hp)) ?_ (by simpa using hn)
      rw [List.length_append]
      omega

/-- The condition of the Windows reader, at the bytes of the data. -/
theorem lastIsCr_cuts {data : UString} {pieces : List UString}
    (hpieces : ∀ piece ∈ pieces, piece.length ≤ 1)
    (hcut : pieces.flatten = ascii "<PM:" ++ (data ++ [cr])) :
    (∀ n, Lexer.Cut [] pieces n → 6 ≤ n → n < data.length + 5 →
        lastIsCr ((ascii "<PM:" ++ (data ++ [cr])).take n) = false) ↔ cr ∉ data.tail := by
  have hlen : (ascii "<PM:" ++ (data ++ [cr])).length = data.length + 5 := by simp [ascii]
  -- the last byte of a beginning is a byte of the data
  have hlast : ∀ k, k + 1 < data.length →
      (lastIsCr ((ascii "<PM:" ++ (data ++ [cr])).take (k + 6)) = true ↔
        data[k + 1]? = some cr) := by
    intro k hk
    have hat : (ascii "<PM:" ++ (data ++ [cr]))[k + 5]? = data[k + 1]? := by
      rw [List.getElem?_append_right (by simp [ascii])]
      exact List.getElem?_append_left (by simpa [ascii] using hk)
    rw [lastIsCr, decide_eq_true_eq, List.getLast?_eq_getElem?, List.length_take_of_le (by omega),
      List.getElem?_take_of_lt (by omega), ← hat]
    rfl
  constructor
  · intro hwaits hmem
    obtain ⟨k, hk⟩ := List.getElem?_of_mem hmem
    rw [List.getElem?_tail] at hk
    obtain ⟨hlt, -⟩ := List.getElem?_eq_some_iff.mp hk
    have hcut' : Lexer.Cut [] pieces (k + 6) :=
      cut_of_bytes hpieces (Nat.zero_le _) (by rw [List.nil_append, hcut, hlen]; omega)
    have hfalse := hwaits (k + 6) hcut' (by omega) (by omega)
    rw [(hlast k hlt).mpr hk] at hfalse
    cases hfalse
  · intro hno n _ hsix hlt
    obtain ⟨k, rfl⟩ : ∃ k, n = k + 6 := ⟨n - 6, by omega⟩
    by_contra htrue
    rw [Bool.not_eq_false] at htrue
    have hcr := (hlast k (by omega)).mp htrue
    rw [← List.getElem?_tail] at hcr
    exact hno (List.mem_of_getElem? hcr)

/-- Download data are delivered whole when the table has their type, and
* on Linux, no read but the last ends behind a carriage return, unless at most
  one byte of the data has been read,
* on Windows, no byte of the data but the first is a carriage return,
and only then. -/
theorem download_delivered {self : CDCImplPrivate} (hwrites : self.eventWrites = [])
    {data : UString} (h0 : 1 ≤ data.length) (h2 : data.length ≠ 2) (h4 : data.length ≠ 4) :
    (∀ reads : List UString, reads.flatten = (Reply.downloadData data).bytes →
      ∃ self' rest effects, readMsgThread (reads.map portRead) self [] = .running self' rest ∧
        self'.log = self.log ++ effects ∧
        (Downloads data effects ↔ self.msgParser.stateType 97 = .msgDownloadData ∧
          ∀ n, Lexer.Cut [] reads n → 6 ≤ n → n < (Reply.downloadData data).bytes.length →
            cr ∉ (Reply.downloadData data).bytes.take n)) ∧
    ∀ (reads : List ReadFileResult) (byteRead : Byte), .failed ∉ reads →
      (reads.map (·.bytes)).flatten = (Reply.downloadData data).bytes →
      ∃ self' rest effects, readingLoop reads self [] byteRead = .running self' rest ∧
        self'.log = self.log ++ effects ∧
        (Downloads data effects ↔ self.msgParser.stateType 97 = .msgDownloadData ∧
          cr ∉ data.tail) := by
  have hlen : (ascii "<PM:" ++ (data ++ [cr])).length = data.length + 5 := by simp [ascii]
  rw [downloadData_bytes, hlen]
  constructor
  · intro reads hcut
    obtain ⟨self', hthread, hafter⟩ := readMsgThread_feed hwrites [] reads
    refine ⟨self', _, _, hthread, hafter.log, ?_⟩
    rw [downloads_iff, feed_downloadData self.msgParser (fun _ h => h) (by omega) h2 h4
      (hasCr_of_mem (by simp)) hcut]
    have hcr : ∀ w, hasCr w = false ↔ cr ∉ w := by
      intro w
      rw [← Bool.not_eq_true]
      exact not_congr ⟨mem_of_hasCr, hasCr_of_mem⟩
    simp only [hcr]
  · intro reads byteRead hreads hcut
    have hlast : ∀ b, ([] : UString).getLast? = some b → b = byteRead := by simp
    obtain ⟨self', hloop, hafter⟩ := readingLoop_feed hwrites hreads hlast
    refine ⟨self', _, _, hloop, hafter.log, ?_⟩
    have htrigger : ∀ w, lastIsCr w = true → hasCr w = true := fun w h =>
      hasCr_of_mem (List.mem_of_getLast? (of_decide_eq_true h))
    have hbytes : ∀ piece ∈ reads.map (·.bytes), piece.length ≤ 1 := by
      intro piece hpiece
      obtain ⟨read, -, rfl⟩ := List.mem_map.mp hpiece
      rw [ReadFileResult.bytes, Option.length_toList]
      split <;> omega
    rw [downloads_iff, feed_downloadData self.msgParser htrigger (by omega) h2 h4
      (by simp [lastIsCr]) hcut, lastIsCr_cuts hbytes hcut]

/-- A byte of data without a carriage return, in two reads and byte by byte. -/
theorem download_delivered_byte :
    (∃ self' rest effects, readMsgThread ([ascii "<PM:", [7, cr]].map portRead)
        (.init (.new listedOnly)) [] = .running self' rest ∧ self'.log = [] ++ effects ∧
      (Downloads [7] effects ↔
        (CDCMessageParserPrivate.new listedOnly).stateType 97 = .msgDownloadData ∧
          ∀ n, Lexer.Cut [] [ascii "<PM:", [7, cr]] n → 6 ≤ n →
            n < (Reply.downloadData [7]).bytes.length →
              cr ∉ (Reply.downloadData [7]).bytes.take n)) ∧
    ∃ self' rest effects,
      readingLoop ((ascii "<PM:" ++ [7, cr]).map .immediate) (.init (.new listedOnly)) [] 0 =
        .running self' rest ∧ self'.log = [] ++ effects ∧
      (Downloads [7] effects ↔
        (CDCMessageParserPrivate.new listedOnly).stateType 97 = .msgDownloadData ∧
          cr ∉ ([7] : UString).tail) := by
  obtain ⟨hlinux, hwindows⟩ :=
    @download_delivered (.init (.new listedOnly)) rfl [7] (by decide) (by decide) (by decide)
  exact ⟨hlinux [ascii "<PM:", [7, cr]] (by decide),
    hwindows ((ascii "<PM:" ++ [7, cr]).map .immediate) 0 (by decide) (by decide)⟩

/-- Download data with a carriage return, behind which a read ends, arrive
truncated on both ports, and the rest of them is dropped. -/
theorem download_truncated :
    ∃ (data : UString) (reads : List UString), 1 ≤ data.length ∧ data.length ≠ 2 ∧
      data.length ≠ 4 ∧ (∀ read ∈ reads, read ≠ []) ∧
      reads.flatten = (Reply.downloadData data).bytes ∧
      (∀ effects, Downloads data effects →
        (readMsgThread (reads.map portRead) (.init (.new listedOnly)) []).self.log ≠ effects) ∧
      ∀ effects, Downloads data effects →
        (readingLoop ((Reply.downloadData data).bytes.map .immediate) (.init (.new listedOnly))
          [] 0).self.log ≠ effects := by
  have htruncated : ∀ effects, Downloads (ascii "AAA" ++ [cr, chr 'B']) effects →
      ∀ log : List Effect, log.length = 5 → log ≠ effects := by
    rintro effects ⟨parsedMessage, rfl, -⟩ log hlog rfl
    cases hlog
  refine ⟨ascii "AAA" ++ [cr, chr 'B'], [ascii "<PM:AAA" ++ [cr], [chr 'B', cr]], by decide,
    by decide, by decide, by decide, by decide, fun effects heffects => ?_,
    fun effects heffects => ?_⟩
  · exact htruncated effects heffects _ (by decide)
  · exact htruncated effects heffects _ (by decide)

/-! ## Upload results -/

/-- The bytes of asynchronous messages. -/
def asyncBytes (payloads : List Payload) : UString :=
  payloads.flatMap fun payload => (Frame.async payload).bytes

/-- An upload result with nothing behind it. -/
theorem drain_uploadResult (parser : CDCMessageParserPrivate) (response : PMResponse) :
    (lexer parser.stateType).drain (Reply.uploadResult response).bytes =
      ([.message (Reply.uploadResult response).message], []) := by
  rw [Lexer.drain_of_some _ (look_uploadResult parser response), Lexer.drain_nil]
  rfl

/-- With asynchronous messages behind it, all of them are taken for download
data. -/
theorem look_uploadResult_async (parser : CDCMessageParserPrivate) (response : PMResponse)
    {payloads : List Payload} (hpayloads : payloads ≠ [])
    (hsized : ∀ payload ∈ payloads, payload.data ≠ []) :
    ∃ parsedMessage, (lexer parser.stateType).look
        ((Reply.uploadResult response).bytes ++ asyncBytes payloads) =
          some (.message parsedMessage, []) ∧
      parsedMessage.message = (Reply.uploadResult response).bytes ++ asyncBytes payloads := by
  obtain ⟨init, last, rfl⟩ := (List.eq_nil_or_concat' payloads).resolve_left hpayloads
  have hlast := List.length_pos_iff.mpr (hsized last (by simp))
  have hbytes : (Reply.uploadResult response).bytes ++ asyncBytes (init ++ [last]) =
      ascii "<PM:" ++ ((response.text ++ cr :: (asyncBytes init ++ chr '<' ::
        (Frame.async last).body)) ++ [cr]) := by
    simp [Reply.bytes, asyncBytes, Frame.bytes]
  have hlong : 6 ≤ (response.text ++ cr :: (asyncBytes init ++ chr '<' ::
      (Frame.async last).body)).length := by
    simp only [List.length_append, List.length_cons, Frame.body, ascii, List.length_map]
    simp
    omega
  rw [hbytes, look_downloadData parser (by omega) (by omega) (by omega)]
  exact ⟨_, rfl, rfl⟩

/-- An upload result is dispatched as it was sent, and the asynchronous messages
behind it are delivered, when there are none, and only then. -/
theorem upload_delivered (platform : Platform) {self : CDCImplPrivate}
    (hwrites : self.eventWrites = []) (response : PMResponse) {payloads : List Payload}
    (hsized : ∀ payload ∈ payloads, payload.data ≠ []) :
    ∃ self' rest effects, processAllMessages platform self
        ((Reply.uploadResult response).bytes ++ asyncBytes payloads) = (.ok (), self', rest) ∧
      self'.log = self.log ++ effects ∧
      ((effects = .dispatched (Reply.uploadResult response).message ::
            .responseStored (Reply.uploadResult response).message :: .newMsgSignalled ::
              payloads.flatMap (fun payload => frameEffects (.async payload)) ∧
          rest = [] ∧
          ∀ target data, (Operation.upload target data).answer
            (Reply.uploadResult response).message = .ok (.pmResponse response)) ↔
        payloads = []) := by
  obtain ⟨self', hprocess, hafter⟩ := processAllMessages_eq platform hwrites
    ((Reply.uploadResult response).bytes ++ asyncBytes payloads)
  refine ⟨self', _, _, hprocess, hafter.log, ?_⟩
  constructor
  · rintro ⟨heffects, -, -⟩
    by_contra hpayloads
    obtain ⟨parsedMessage, hlook, hmessage⟩ :=
      look_uploadResult_async self.msgParser response hpayloads hsized
    -- the first message is longer than the result
    rw [Lexer.drain_of_some _ hlook, List.flatMap_cons, Item.effects, List.cons_append,
      List.cons.injEq, Effect.dispatched.injEq] at heffects
    have hlen := congrArg (fun m => m.message.length) heffects.1
    simp only [hmessage, Reply.message, List.length_append] at hlen
    have hnone : asyncBytes payloads = [] := List.length_eq_zero_iff.mp (by omega)
    obtain ⟨payload, hpayload⟩ := List.exists_mem_of_ne_nil payloads hpayloads
    exact absurd (List.flatMap_eq_nil_iff.mp hnone payload hpayload) (Frame.bytes_ne_nil _)
  · rintro rfl
    have hbytes : (Reply.uploadResult response).bytes ++ asyncBytes [] =
        (Reply.uploadResult response).bytes := List.append_nil _
    have hparsed : getParsedPMResponse (Reply.uploadResult response).message.message =
        .ok response := getParsedPMResponse_eq response
    rw [hbytes, drain_uploadResult]
    refine ⟨?_, rfl, fun target data => ?_⟩
    · simp [Item.effects, Reply.message, Reply.msgType]
    · simp [Operation.answer, hparsed, Except.map]

theorem upload_delivered_ok :
    ∃ self' rest effects, processAllMessages .linux (.init (.new listedOnly))
        ((Reply.uploadResult .ok).bytes ++ asyncBytes []) = (.ok (), self', rest) ∧
      self'.log = [] ++ effects ∧
      ((effects = .dispatched (Reply.uploadResult .ok).message ::
            .responseStored (Reply.uploadResult .ok).message :: .newMsgSignalled ::
              ([] : List Payload).flatMap (fun payload => frameEffects (.async payload)) ∧
          rest = [] ∧
          ∀ target data, (Operation.upload target data).answer
            (Reply.uploadResult .ok).message = .ok (.pmResponse .ok)) ↔
        ([] : List Payload) = []) :=
  @upload_delivered .linux (.init (.new listedOnly)) rfl .ok [] (by simp)

/-- A message behind an upload result turns both into download data. -/
theorem upload_swallows_async :
    ∃ (response : PMResponse) (payloads : List Payload),
      (∀ payload ∈ payloads, payload.data ≠ []) ∧
      dispatchedMessages (processAllMessages .linux (.init (.new listedOnly))
        ((Reply.uploadResult response).bytes ++ asyncBytes payloads)).2.1.log =
          [(Reply.downloadData
            (ascii "OK" ++ [cr] ++ ascii "<DR" ++ [1, chr ':', chr 'a'])).message] :=
  ⟨.ok, [⟨[chr 'a'], by decide⟩], by decide, by decide⟩

end Clibcdc.Reader
