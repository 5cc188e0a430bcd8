import Clibcdc.PgmHex.Turns
import Clibcdc.PgmHex.Images

/-!
# The example uploads what the file is to be uploaded as

The program goes through a file as `combiner` goes through its pieces: after each
record it has uploaded the runs that the combiner has passed on, and its image
holds the run that is kept back (`record_taken`).  So what it uploads of a whole
file are the runs of its pieces (`program_uploads`).
-/

namespace Clibcdc.PgmHex

open Clibcdc.Memory PrepareMemBlock

/-! ## What is uploaded on the way -/

/-- On the way from one state to the other, the runs are uploaded. -/
def Writes (s s' : Programmer) (runs : List (List Piece)) : Prop :=
  ∃ packets, s.outcome = (packets ++ s'.outcome.1, s'.outcome.2) ∧ Uploaded packets runs

theorem Writes.trans {s₁ s₂ s₃ : Programmer} {runs runs' : List (List Piece)}
    (h : Writes s₁ s₂ runs) (h' : Writes s₂ s₃ runs') : Writes s₁ s₃ (runs ++ runs') := by
  obtain ⟨packets, houtcome, huploaded⟩ := h
  obtain ⟨packets', houtcome', huploaded'⟩ := h'
  refine ⟨packets ++ packets', ?_, huploaded.append huploaded'⟩
  rw [houtcome, houtcome', List.append_assoc]

variable {reader : HexReader} {p p' : PrepareMemBlock}

theorem prepareTurn_ready (hready : p.dataInBufferReady = true) :
    Programmer.prepareTurn ⟨p, reader⟩ = (p.prepareRecord reader.codeLineBuffer).map
      fun (result, p) => (result, ⟨p, reader⟩) := by
  unfold Programmer.prepareTurn
  simp only [if_pos hready]

theorem writes_goesOn (hready : p.dataInBufferReady = true)
    (h : p.prepareRecord reader.codeLineBuffer = .ok (none, p')) :
    Writes ⟨p, reader⟩ ⟨p', reader⟩ [] := by
  have hturn : Programmer.prepareTurn ⟨p, reader⟩ = .ok (none, ⟨p', reader⟩) := by
    rw [prepareTurn_ready hready, h]
    rfl
  refine ⟨[], ?_, .nil⟩
  rw [Programmer.outcome_turn, hturn]
  rfl

theorem writes_ready (hready : p.dataInBufferReady = true) {opResult : PgmResult}
    (h : p.prepareRecord reader.codeLineBuffer = .ok (some opResult, p')) (hresult : opResult.Ready)
    {runs : List (List Piece)}
    (hruns : Uploaded (p'.writePackets opResult p'.memoryBlockProcessState).1 runs) :
    Writes ⟨p, reader⟩
      ⟨(p'.writePackets opResult p'.memoryBlockProcessState).2.enter, reader⟩ runs := by
  have hturn : Programmer.prepareTurn ⟨p, reader⟩ = .ok (some opResult, ⟨p', reader⟩) := by
    rw [prepareTurn_ready hready, h]
    rfl
  refine ⟨_, ?_, hruns⟩
  rw [Programmer.outcome_turn, hturn]
  exact if_pos hresult

/-! ## A record -/

/-- A record has been taken: runs are uploaded, and the image holds a run. -/
def Taken (reader : HexReader) (p : PrepareMemBlock) (hiAddress : Nat)
    (pushed : List (List Piece) × List Piece) : Prop :=
  ∃ p', Writes ⟨p, reader⟩ ⟨p', reader⟩ pushed.1 ∧ Holds p' pushed.2 ∧
    p'.dataInBufferReady = false ∧ p'.hiAddress = hiAddress

/-- An image with something of another block is uploaded first, and the record
stays in the buffer. -/
theorem writes_waiting {run : List Piece} (hready : p.dataInBufferReady = true)
    {q : PrepareMemBlock} (hq : Holds q run) (hne : run ≠ []) (hoverflow : q.dataOverflow = false)
    (hwait : p.prepareRecord reader.codeLineBuffer = .ok (some q.blockReady, q)) :
    ∃ p', Writes ⟨p, reader⟩ ⟨p', reader⟩ [run] ∧ Holds p' [] ∧
      p'.dataInBufferReady = q.dataInBufferReady ∧ p'.hiAddress = q.hiAddress := by
  obtain ⟨packets, hwritten, huploaded⟩ := hq.blockReady hne hoverflow
  refine ⟨_, writes_ready hready hwait (blockReady_ready q) (by rwa [hwritten]), ?_, ?_, ?_⟩
  · rw [hwritten]
    exact Holds.enter hoverflow
  · rw [hwritten]
    rfl
  · rw [hwritten]
    rfl

theorem pushAll_joined {area : Area} {block : Nat} {run : List Piece} (h : Joins area block run)
    (harea : area ≠ .eeprom) {piece : Piece} (hpiece : piece.area = area ∧ piece.block = block)
    (pieces : List Piece) :
    combiner.pushAll run (piece :: pieces) = combiner.pushAll (run ++ [piece]) pieces := by
  apply Combiner.pushAll_joins
  · simp [combiner, hpiece.1, harea]
  · intro last hlast
    obtain ⟨hlastArea, hlastBlock⟩ := h last (List.mem_of_getLast? hlast)
    simp [combiner, hpiece.1, hpiece.2, hlastArea, hlastBlock, harea]

section Area

variable {r : HexRecord} {run : List Piece} (hready : p.dataInBufferReady = true)
  (hline : LineHolds reader.codeLineBuffer r) {q : PrepareMemBlock}
  (hoverflow : q.dataOverflow = false)

include hready hline hoverflow

/-- A record for the flash memory, whose block is that of the image. -/
theorem taken_flash (hq : Holds q run) {maxAdr : Nat}
    (hrecord : p.prepareRecord reader.codeLineBuffer =
      flashRecord maxAdr reader.codeLineBuffer q)
    (haddress : 80 ≤ q.address / 32)
    (hhalf : HexRecord.InHalf (q.address % 32 * 2)
      (HexRecord.flashData maxAdr q.address r.data).length)
    (hnumber : q.memoryBlockNumber = 0 ∨ q.memoryBlockNumber = q.address / 32) :
    Taken reader p q.hiAddress
      (combiner.pushAll run [HexRecord.flashPiece maxAdr q.address r.data]) := by
  obtain ⟨hjoins, p', hflash, hholds, hready', hhi⟩ :=
    flashRecord_joins hline hq hoverflow haddress hhalf hnumber
  rw [pushAll_joined hjoins (by simp) ⟨rfl, rfl⟩]
  exact ⟨p', writes_goesOn hready (hrecord.trans hflash), hholds, hready', hhi⟩

/-- A record for the serial EEPROM, whose block is that of the image. -/
theorem taken_serialEeprom (hq : Holds q run)
    (hrecord : p.prepareRecord reader.codeLineBuffer =
      serialEepromRecord reader.codeLineBuffer q)
    (haddress : serialEepromMinAdr ≤ q.address ∧ q.address ≤ serialEepromMaxAdr)
    (hplaced : q.address + r.data.length / 2 ≤ serialEepromMaxAdr + 1)
    (hnumber : q.memoryBlockNumber = 0 ∨ q.memoryBlockNumber = q.address / 32) :
    Taken reader p q.hiAddress
      (combiner.pushAll run (HexRecord.serialEepromPieces q.address (lowBytes r.data))) := by
  have hopened := hq.opened hoverflow haddress hnumber
  have hlow := lowBytes_length r.data
  have hblock : q.address / 32 = (q.address - serialEepromMinAdr) / 32 + 16 := by
    unfold serialEepromMinAdr at haddress ⊢
    omega
  unfold serialEepromMinAdr at haddress
  unfold serialEepromMaxAdr at haddress hplaced
  unfold HexRecord.serialEepromPieces
  by_cases hfits : q.address % 32 + r.data.length / 2 ≤ 32
  · obtain ⟨p', hserial, hholds, hready', hhi⟩ :=
      serialEepromRecord_joins hline hopened (by omega) hblock hfits
    have hrest : (lowBytes r.data).drop (32 - q.address % 32) = [] :=
      List.drop_of_length_le (by omega)
    have hfirst : (lowBytes r.data).take (32 - q.address % 32) = lowBytes r.data :=
      List.take_of_length_le (by omega)
    simp only [hrest, if_true, hfirst]
    rw [pushAll_joined hopened.joins (by simp) ⟨rfl, rfl⟩]
    exact ⟨p', writes_goesOn hready (hrecord.trans hserial), hholds, hready', hhi⟩
  · obtain ⟨p', hserial, hwritten, hholds, hready', hhi⟩ :=
      serialEepromRecord_overflows hline hopened hblock (by omega) (by omega)
    have hrest : (lowBytes r.data).drop (32 - q.address % 32) ≠ [] := by
      intro hnil
      have hlength := congrArg List.length hnil
      rw [List.length_drop, List.length_nil] at hlength
      omega
    simp only [if_neg hrest]
    rw [pushAll_joined hopened.joins (by simp) ⟨rfl, rfl⟩,
      Combiner.pushAll_other List.getLast?_concat (by simp [combiner]),
      pushAll_joined (show Joins .serialEeprom ((q.address - 0x200) / 32 + 1) [] by simp [Joins])
        (by simp) ⟨rfl, rfl⟩]
    obtain ⟨hfields, -, hfieldsHi⟩ := p'.writePackets_fields .eeepromBlockReady
      p'.memoryBlockProcessState
    exact ⟨_, writes_ready hready (hrecord.trans hserial) (by decide) hwritten, hholds,
      hfields.trans hready', hfieldsHi.trans hhi⟩

/-- A record for the internal EEPROM, when no image is kept back. -/
theorem taken_eeprom
    (hrecord : p.prepareRecord reader.codeLineBuffer = eepromRecord reader.codeLineBuffer q)
    (hplaced : q.address + r.data.length / 2 ≤ eepromMax) (hnumber : q.memoryBlockNumber = 0)
    (hrun : run = []) :
    Taken reader p q.hiAddress
      (combiner.pushAll run [⟨.eeprom, q.address % 256, 0, lowBytes r.data⟩]) := by
  obtain ⟨p', heeprom, hwritten, hoverflow', hready', hhi⟩ :=
    eepromRecord_fills hline hnumber hoverflow hplaced
  obtain ⟨hfields, hfieldsOverflow, hfieldsHi⟩ := p'.writePackets_fields .eepromBlockReady
    p'.memoryBlockProcessState
  subst hrun
  exact ⟨_, writes_ready hready (hrecord.trans heeprom) (by decide) hwritten,
    Holds.enter (hfieldsOverflow.trans hoverflow'), hfields.trans hready', hfieldsHi.trans hhi⟩

end Area

/-- The image is of the block of the record, or holds nothing. -/
def Joinable (q : PrepareMemBlock) : Prop :=
  q.memoryBlockNumber = 0 ∨
    q.memoryBlockNumber = q.address / 32 ∧ ¬ (eepromMin ≤ q.address ∧ q.address ≤ eepromMax)

theorem Holds.eq_nil {run : List Piece} (h : Holds p run) (hoverflow : p.dataOverflow = false)
    (hnumber : p.memoryBlockNumber = 0) : run = [] := by
  rcases h.last hoverflow with hnil | ⟨piece, -, hpiece⟩
  · exact hnil.1
  · omega

/-- A record with data, which has been located. -/
structure Located (reader : HexReader) (p q : PrepareMemBlock) (r : HexRecord)
    (run : List Piece) : Prop where
  holds : Holds q run
  overflow : q.dataOverflow = false
  ready : q.dataInBufferReady = p.dataInBufferReady
  address : q.address = r.wordAddress p.hiAddress
  hiAddress : q.hiAddress = p.hiAddress
  record : p.prepareRecord reader.codeLineBuffer = q.dataRecord reader.codeLineBuffer
  pieces : r.pieces p.hiAddress = HexRecord.dataPieces q.address r.data

theorem located {r : HexRecord} {run : List Piece} (hline : LineHolds reader.codeLineBuffer r)
    (htype : r.type = 0) (h : Holds p run) :
    Located reader p (p.locate reader.codeLineBuffer) r run := by
  obtain ⟨hready, hoverflow, -⟩ := locate_fields reader.codeLineBuffer p
  obtain ⟨haddress, hhi⟩ := locate_address reader.codeLineBuffer p
  rw [hline.address] at haddress
  refine ⟨h.locate _, hoverflow, hready, haddress, hhi, ?_, ?_⟩
  · rw [prepareRecord, if_pos (hline.type.trans htype)]
  · rw [HexRecord.pieces, if_pos htype, haddress]

theorem serialEepromPieces_cons (address : Nat) (data : UString) :
    ∃ rest, HexRecord.serialEepromPieces address data =
      ⟨.serialEeprom, (address - serialEepromMinAdr) / 32, address % 32,
        data.take (32 - address % 32)⟩ :: rest := by
  unfold HexRecord.serialEepromPieces
  dsimp only
  split_ifs
  · exact ⟨[], rfl⟩
  · exact ⟨_, rfl⟩

/-- A record with data, when no image has to be uploaded first. -/
theorem taken_joins {r : HexRecord} {run : List Piece} (hready : p.dataInBufferReady = true)
    (hline : LineHolds reader.codeLineBuffer r) (htype : r.type = 0)
    (hplaced : r.WellPlaced p.hiAddress) {q : PrepareMemBlock} (hq : Located reader p q r run)
    (hjoinable : r.pieces p.hiAddress ≠ [] → Joinable q) :
    Taken reader p p.hiAddress (combiner.pushAll run (r.pieces p.hiAddress)) := by
  obtain ⟨hholds, hoverflow, -, haddress, hhi, hrecord, hpieces⟩ := hq
  rw [hpieces] at hjoinable ⊢
  rw [HexRecord.WellPlaced, if_pos htype] at hplaced
  simp only [← haddress] at hplaced
  rw [← hhi]
  unfold dataRecord at hrecord
  unfold HexRecord.dataPieces at hjoinable ⊢
  by_cases hserial : serialEepromMinAdr ≤ q.address ∧ q.address ≤ serialEepromMaxAdr
  · rw [if_pos hserial] at hrecord hplaced hjoinable ⊢
    obtain ⟨rest, hpieces'⟩ := serialEepromPieces_cons q.address (lowBytes r.data)
    have hnumber := hjoinable (by simp [hpieces'])
    exact taken_serialEeprom hready hline hoverflow hholds hrecord hserial hplaced
      (hnumber.imp_right And.left)
  rw [if_neg hserial] at hrecord hplaced hjoinable ⊢
  by_cases hmain : iqrfMainMemMinAdr ≤ q.address ∧ q.address ≤ iqrfMainMemMaxAdr
  · rw [if_pos hmain] at hrecord hplaced hjoinable ⊢
    have hblock : 80 ≤ q.address / 32 := by
      unfold iqrfMainMemMinAdr at hmain
      omega
    exact taken_flash hready hline hoverflow hholds hrecord hblock hplaced
      ((hjoinable (by simp)).imp_right And.left)
  rw [if_neg hmain] at hrecord hplaced hjoinable ⊢
  by_cases hlicenced : iqrfLicencedMemMinAdr ≤ q.address ∧ q.address ≤ iqrfLicencedMemMaxAdr
  · rw [if_pos hlicenced] at hrecord hplaced hjoinable ⊢
    have hblock : 80 ≤ q.address / 32 := by
      unfold iqrfLicencedMemMinAdr at hlicenced
      omega
    exact taken_flash hready hline hoverflow hholds hrecord hblock hplaced
      ((hjoinable (by simp)).imp_right And.left)
  rw [if_neg hlicenced] at hrecord hplaced hjoinable ⊢
  by_cases heeprom : eepromMin ≤ q.address ∧ q.address ≤ eepromMax
  · rw [if_pos heeprom] at hrecord hplaced hjoinable ⊢
    have hnumber := (hjoinable (by simp)).resolve_right fun h => h.2 heeprom
    exact taken_eeprom hready hline hoverflow hrecord hplaced hnumber
      (Holds.eq_nil hholds hoverflow hnumber)
  · rw [if_neg heeprom] at hrecord ⊢
    exact ⟨_, writes_goesOn hready hrecord, hholds.congr rfl rfl rfl rfl, rfl, rfl⟩

/-- A record with data, when the image is of another block. -/
theorem dataRecord_waits {r : HexRecord} {run : List Piece}
    (hline : LineHolds reader.codeLineBuffer r) (htype : r.type = 0)
    (hplaced : r.WellPlaced p.hiAddress) {q : PrepareMemBlock} (hq : Located reader p q r run)
    (hpieces : r.pieces p.hiAddress ≠ []) (hjoinable : ¬ Joinable q) :
    p.prepareRecord reader.codeLineBuffer = .ok (some q.blockReady, q) ∧
      ∃ piece pieces last, r.pieces p.hiAddress = piece :: pieces ∧ run.getLast? = some last ∧
        combiner.joins last piece = false := by
  obtain ⟨hholds, hoverflow, -, haddress, -, hrecord, hpieces'⟩ := hq
  rw [hpieces'] at hpieces ⊢
  rw [HexRecord.WellPlaced, if_pos htype] at hplaced
  simp only [← haddress] at hplaced
  unfold Joinable at hjoinable
  rw [not_or] at hjoinable
  obtain ⟨hzero, hother⟩ := hjoinable
  obtain ⟨last, hlast, hlastPiece⟩ := (hholds.last hoverflow).resolve_left fun h => hzero h.2
  have hflash : ∀ maxAdr, ¬ (eepromMin ≤ q.address ∧ q.address ≤ eepromMax) →
      80 ≤ q.address / 32 →
      HexRecord.InHalf (q.address % 32 * 2)
        (HexRecord.flashData maxAdr q.address r.data).length →
      flashRecord maxAdr reader.codeLineBuffer q = .ok (some q.blockReady, q) ∧
        combiner.joins last (HexRecord.flashPiece maxAdr q.address r.data) = false := by
    intro maxAdr hnot hblock hhalf
    have hne : q.memoryBlockNumber ≠ q.address / 32 := fun heq => hother ⟨heq, hnot⟩
    refine ⟨(flashRecord_eq hline rfl hhalf).trans (if_pos ⟨hzero, hne⟩), ?_⟩
    rcases hlastPiece with ⟨-, hlastBlock, -⟩ | ⟨hlastArea, -, -⟩
    · simp [combiner, HexRecord.flashPiece, hlastBlock, hne]
    · simp [combiner, HexRecord.flashPiece, hlastArea]
  unfold dataRecord at hrecord
  unfold HexRecord.dataPieces at hpieces ⊢
  by_cases hserial : serialEepromMinAdr ≤ q.address ∧ q.address ≤ serialEepromMaxAdr
  · rw [if_pos hserial] at hrecord ⊢
    obtain ⟨rest, hcons⟩ := serialEepromPieces_cons q.address (lowBytes r.data)
    unfold serialEepromMinAdr serialEepromMaxAdr at hserial
    unfold eepromMin at hother
    have hne : q.memoryBlockNumber ≠ q.address / 32 := fun heq => hother ⟨heq, by omega⟩
    refine ⟨hrecord.trans (serialEepromRecord_waits hzero hne), _, rest, last, hcons, hlast, ?_⟩
    rcases hlastPiece with ⟨hlastArea, -, -⟩ | ⟨-, hlastBlock, -⟩
    · simp [combiner, hlastArea]
    · have hblock : last.block ≠ (q.address - serialEepromMinAdr) / 32 := by
        unfold serialEepromMinAdr
        omega
      simp [combiner, hblock]
  rw [if_neg hserial] at hrecord hplaced hpieces ⊢
  by_cases hmain : iqrfMainMemMinAdr ≤ q.address ∧ q.address ≤ iqrfMainMemMaxAdr
  · rw [if_pos hmain] at hrecord hplaced ⊢
    unfold iqrfMainMemMinAdr iqrfMainMemMaxAdr at hmain
    obtain ⟨hwaits, hjoins⟩ := hflash iqrfMainMemMaxAdr
      (by unfold eepromMin; omega) (by omega) hplaced
    exact ⟨hrecord.trans hwaits, _, [], last, rfl, hlast, hjoins⟩
  rw [if_neg hmain] at hrecord hplaced hpieces ⊢
  by_cases hlicenced : iqrfLicencedMemMinAdr ≤ q.address ∧ q.address ≤ iqrfLicencedMemMaxAdr
  · rw [if_pos hlicenced] at hrecord hplaced ⊢
    unfold iqrfLicencedMemMinAdr iqrfLicencedMemMaxAdr at hlicenced
    obtain ⟨hwaits, hjoins⟩ := hflash iqrfLicencedMemMaxAdr
      (by unfold eepromMin; omega) (by omega) hplaced
    exact ⟨hrecord.trans hwaits, _, [], last, rfl, hlast, hjoins⟩
  rw [if_neg hlicenced] at hrecord hplaced hpieces ⊢
  by_cases heeprom : eepromMin ≤ q.address ∧ q.address ≤ eepromMax
  · rw [if_pos heeprom] at hrecord ⊢
    refine ⟨hrecord.trans ?_, _, [], last, rfl, hlast, combiner.joins_of_alone (.inr rfl)⟩
    exact if_pos hzero
  · rw [if_neg heeprom] at hpieces
    exact absurd rfl hpieces

/-- A record is taken as the combiner takes its pieces. -/
theorem record_taken {r : HexRecord} {run : List Piece} (hready : p.dataInBufferReady = true)
    (hline : LineHolds reader.codeLineBuffer r) (hholds : Holds p run)
    (hplaced : r.WellPlaced p.hiAddress) :
    Taken reader p (r.nextHiAddress p.hiAddress)
      (combiner.pushAll run (r.pieces p.hiAddress)) := by
  by_cases htype : r.type = 0
  · have hnext : r.nextHiAddress p.hiAddress = p.hiAddress := by
      rw [HexRecord.nextHiAddress, if_neg (by rw [htype]; decide)]
    rw [hnext]
    have hq := located hline htype hholds
    by_cases hjoinable : r.pieces p.hiAddress ≠ [] → Joinable (p.locate reader.codeLineBuffer)
    · exact taken_joins hready hline htype hplaced hq hjoinable
    rw [Classical.not_imp] at hjoinable
    obtain ⟨hpieces, hother⟩ := hjoinable
    -- the image is uploaded, and then the record finds none
    obtain ⟨hwaits, piece, pieces, last, hcons, hlast, hjoins⟩ :=
      dataRecord_waits hline htype hplaced hq hpieces hother
    have hne : run ≠ [] := by
      rintro rfl
      cases hlast
    obtain ⟨p₂, hwrites, hholds₂, hready₂, hhi₂⟩ :=
      writes_waiting hready hq.holds hne hq.overflow hwaits
    rw [hq.ready, hready] at hready₂
    rw [hq.hiAddress] at hhi₂
    have hq₂ := located hline htype hholds₂
    have hjoinable₂ : Joinable (p₂.locate reader.codeLineBuffer) := by
      rcases hq₂.holds.last hq₂.overflow with hnil | ⟨piece, hpiece, -⟩
      · exact .inl hnil.2
      · cases hpiece
    obtain ⟨p', hwrites', hholds', hready', hhi'⟩ :=
      taken_joins hready₂ hline htype (hhi₂ ▸ hplaced) hq₂ fun _ => hjoinable₂
    rw [hhi₂] at hwrites' hholds' hhi'
    rw [hcons, Combiner.pushAll_other hlast hjoins, ← hcons]
    exact ⟨p', hwrites.trans hwrites', hholds', hready', hhi'⟩
  · have hpieces : r.pieces p.hiAddress = [] := if_neg htype
    rw [hpieces]
    rw [HexRecord.WellPlaced, if_neg htype] at hplaced
    by_cases haddress : r.type = 4
    · have hrecord : p.prepareRecord reader.codeLineBuffer = .ok (none, { p with
          hiAddress := r.nextHiAddress p.hiAddress, dataInBufferReady := false }) := by
        rw [prepareRecord, hline.type, if_neg htype, if_pos haddress,
          hline.hiAddress haddress (hplaced haddress)]
      exact ⟨_, writes_goesOn hready hrecord, hholds.congr rfl rfl rfl rfl, rfl, rfl⟩
    · have hnext : r.nextHiAddress p.hiAddress = p.hiAddress := if_neg haddress
      have hrecord : p.prepareRecord reader.codeLineBuffer =
          .ok (none, { p with dataInBufferReady := false }) := by
        rw [prepareRecord, hline.type, if_neg htype, if_neg haddress]
      rw [hnext]
      exact ⟨_, writes_goesOn hready hrecord, hholds.congr rfl rfl rfl rfl, rfl, rfl⟩

/-! ## A file -/

/-- A line is read, and then the record in it stands in the buffer. -/
theorem outcome_line (hready : p.dataInBufferReady = false) (line : HexLine) (rest : UString)
    (buffer : LineBuffer) :
    Programmer.outcome ⟨p, ⟨line.text ++ rest, buffer⟩⟩ =
      Programmer.outcome ⟨{ p with dataInBufferReady := true },
        ⟨rest, buffer.overwrite 0 line.record.lineBytes⟩⟩ := by
  have hturn : Programmer.prepareTurn ⟨p, ⟨line.text ++ rest, buffer⟩⟩ =
      Programmer.prepareTurn ⟨{ p with dataInBufferReady := true },
        ⟨rest, buffer.overwrite 0 line.record.lineBytes⟩⟩ := by
    rw [@prepareTurn_ready ⟨rest, _⟩ { p with dataInBufferReady := true } rfl]
    unfold Programmer.prepareTurn
    simp only [hready, Bool.false_eq_true, if_false, line.read]
  rw [Programmer.outcome_turn, hturn, ← Programmer.outcome_turn]

/-- The lines of a file are taken as the combiner takes their pieces. -/
theorem lines_taken {run : List Piece} (hready : p.dataInBufferReady = false)
    (hholds : Holds p run) {lines : List HexLine}
    (hplaced : FileWellPlaced p.hiAddress (lines.map HexLine.record)) (tail : UString)
    (buffer : LineBuffer) :
    ∃ p' buffer', Writes ⟨p, ⟨hexText lines tail, buffer⟩⟩ ⟨p', ⟨tail, buffer'⟩⟩
        (combiner.pushAll run (filePieces p.hiAddress (lines.map HexLine.record))).1 ∧
      Holds p' (combiner.pushAll run (filePieces p.hiAddress (lines.map HexLine.record))).2 ∧
      p'.dataInBufferReady = false := by
  induction lines generalizing p run buffer with
  | nil =>
    exact ⟨p, buffer, ⟨[], by simp [hexText], .nil⟩, hholds, hready⟩
  | cons line lines ih =>
    obtain ⟨hrecord, hrest⟩ := hplaced
    obtain ⟨p₁, hwrites, hholds₁, hready₁, hhi⟩ := @record_taken
      ⟨hexText lines tail, buffer.overwrite 0 line.record.lineBytes⟩
      { p with dataInBufferReady := true } line.record run rfl (lineHolds_read _ _)
      (hholds.congr rfl rfl rfl rfl) hrecord
    obtain ⟨p', buffer', hwrites', hholds', hready'⟩ :=
      ih hready₁ hholds₁ (hhi ▸ hrest) (buffer.overwrite 0 line.record.lineBytes)
    refine ⟨p', buffer', ?_, ?_, hready'⟩
    · have htext : hexText (line :: lines) tail = line.text ++ hexText lines tail := by
        simp [hexText]
      have hfirst : Writes ⟨p, ⟨hexText (line :: lines) tail, buffer⟩⟩
          ⟨p₁, ⟨hexText lines tail, buffer.overwrite 0 line.record.lineBytes⟩⟩
          (combiner.pushAll run (line.record.pieces p.hiAddress)).1 := by
        obtain ⟨packets, houtcome, huploaded⟩ := hwrites
        rw [htext]
        exact ⟨packets, (outcome_line hready line _ buffer).trans houtcome, huploaded⟩
      rw [hhi] at hwrites'
      have hall := hfirst.trans hwrites'
      rw [List.map_cons, filePieces, Combiner.pushAll_append]
      exact hall
    · rw [hhi] at hholds'
      rw [List.map_cons, filePieces, Combiner.pushAll_append]
      exact hholds'

theorem holds_start (file : UString) : Holds (Programmer.start file).prepareMemBlock.enter [] :=
  Holds.enter rfl

theorem prepareTurn_end (hready : p.dataInBufferReady = false) {tail : UString}
    (htail : Skipped tail) (buffer : LineBuffer) :
    Programmer.prepareTurn ⟨p, ⟨tail, buffer⟩⟩ =
      .ok (some p.endOfFile.1, ⟨p.endOfFile.2, ⟨[], buffer⟩⟩) := by
  have hsign := findSign_skipped htail []
  rw [List.append_nil] at hsign
  have hread : iqrfPgmReadHEXFileLine ⟨tail, buffer⟩ = .ok (.endOfFile, ⟨[], buffer⟩) := by
    rw [iqrfPgmReadHEXFileLine, hsign]
    rfl
  unfold Programmer.prepareTurn
  simp only [hready, Bool.false_eq_true, if_false, hread]

theorem outcome_end_blank (hready : p.dataInBufferReady = false) (hholds : Holds p [])
    {tail : UString} (htail : Skipped tail) (buffer : LineBuffer) :
    Programmer.outcome ⟨p, ⟨tail, buffer⟩⟩ = ([], .ok .success) := by
  rw [Programmer.outcome_turn, prepareTurn_end hready htail]
  cases hholds with
  | blank hnumber hoverflow =>
    have hend : p.endOfFile = (.success, p) := by simp [endOfFile, hnumber, hoverflow]
    rw [hend]
    rfl
  | flash _ hne => exact absurd rfl hne
  | serialEeprom _ hne => exact absurd rfl hne
  | overflowed _ hne => exact absurd rfl hne

/-- At the end of the file, an image that is kept back is uploaded. -/
theorem outcome_end {run : List Piece} (hready : p.dataInBufferReady = false) (hholds : Holds p run)
    {tail : UString} (htail : Skipped tail) (buffer : LineBuffer) :
    ∃ packets, Programmer.outcome ⟨p, ⟨tail, buffer⟩⟩ = (packets, .ok .success) ∧
      Uploaded packets (Combiner.flush run) := by
  by_cases hnil : run = []
  · subst hnil
    exact ⟨[], outcome_end_blank hready hholds htail buffer, .nil⟩
  -- what has overflowed is moved before it is uploaded
  obtain ⟨q, hend, hq, hoverflow, hqready⟩ : ∃ q, p.endOfFile = (q.blockReady, q) ∧ Holds q run ∧
      q.dataOverflow = false ∧ q.dataInBufferReady = false := by
    have hmoved := hholds.moved
    cases hholds with
    | blank => exact absurd rfl hnil
    | flash hrun hne hnumber hblock hstate hoverflow hfirst hsecond himage hcells =>
      exact ⟨p, if_pos (by omega), .flash hrun hne hnumber hblock hstate hoverflow hfirst hsecond
        himage hcells, hoverflow, hready⟩
    | serialEeprom hrun hne hnumber hblock hstate hoverflow hcells =>
      exact ⟨p, if_pos (by omega), .serialEeprom hrun hne hnumber hblock hstate hoverflow hcells,
        hoverflow, hready⟩
    | overflowed hrun hne hnumber hblock hoverflow hcells =>
      have hq := hmoved hoverflow
      refine ⟨p.iqrfPgmMoveOverflowedData, ?_, hq, rfl, hready⟩
      have hsmall : p.iqrfPgmMoveOverflowedData.memoryBlockNumber < 80 := by
        rcases hq.last rfl with hempty | ⟨piece, hpiece, ⟨harea, -⟩ | ⟨-, -, hlt⟩⟩
        · exact absurd hempty.1 hne
        · have hserial := (hrun piece (List.mem_of_getLast? hpiece)).1
          simp [harea] at hserial
        · exact hlt
      simp [endOfFile, hnumber, hoverflow, PrepareMemBlock.blockReady, hsmall]
  have hlast := List.getLast?_eq_some_getLast hnil
  rw [Programmer.outcome_turn, prepareTurn_end hready htail, hend]
  simp only [if_pos (blockReady_ready q)]
  obtain ⟨packets, hwritten, huploaded⟩ := hq.blockReady hnil hoverflow
  have hrest : Programmer.outcome (Programmer.afterWriting q.blockReady
      ⟨q, ⟨[], buffer⟩⟩).enter = ([], .ok .success) := by
    apply outcome_end_blank
    · simp only [Programmer.afterWriting, hwritten]
      exact hqready
    · simp only [Programmer.afterWriting, hwritten]
      exact Holds.enter hoverflow
    · simp [Skipped]
  rw [hrest, Combiner.flush_some hlast]
  exact ⟨packets, by simp [Programmer.written, hwritten], huploaded⟩

/-- A line that cannot be read ends the program, and what is kept back is lost. -/
theorem outcome_broken (hready : p.dataInBufferReady = false) {tail : UString}
    (hline : ¬ HasNoLine tail) (hbroken : ∀ digits rest, ¬ BeginsWithLine tail digits rest)
    (buffer : LineBuffer) :
    Programmer.outcome ⟨p, ⟨tail, buffer⟩⟩ = ([], .ok .error) := by
  obtain ⟨result, reader', hread, hcases⟩ := readHEXFileLine_cases ⟨tail, buffer⟩
  have herror : result = .fileDataError := by
    cases result with
    | fileDataError => rfl
    | fileDataReady =>
      obtain ⟨-, digits, hbegins⟩ := hcases
      exact absurd hbegins (hbroken _ _)
    | endOfFile => exact absurd hcases.2 hline
  subst herror
  have hturn : Programmer.prepareTurn ⟨p, ⟨tail, buffer⟩⟩ = .ok (some .error, ⟨p, reader'⟩) := by
    unfold Programmer.prepareTurn
    simp only [hready, Bool.false_eq_true, if_false, hread]
  rw [Programmer.outcome_turn, hturn]
  rfl

/-! ## What the program uploads -/

theorem main_lines {lines : List HexLine}
    (hplaced : FileWellPlaced 0 (lines.map HexLine.record)) (tail : UString) :
    ∃ p buffer packets,
      Programmer.main (hexText lines tail) =
        (packets ++ (Programmer.outcome ⟨p, ⟨tail, buffer⟩⟩).1,
          (Programmer.outcome ⟨p, ⟨tail, buffer⟩⟩).2) ∧
      Uploaded packets (combiner.pushAll [] (filePieces 0 (lines.map HexLine.record))).1 ∧
      Holds p (combiner.pushAll [] (filePieces 0 (lines.map HexLine.record))).2 ∧
      p.dataInBufferReady = false := by
  obtain ⟨p, buffer, ⟨packets, houtcome, huploaded⟩, hholds, hready⟩ := @lines_taken
    (Programmer.start (hexText lines tail)).prepareMemBlock.enter [] rfl (holds_start _) lines
    hplaced tail (Block.fill 0)
  exact ⟨p, buffer, packets, (Programmer.main_outcome _).trans houtcome, huploaded, hholds, hready⟩

/-- The packets of a whole file are those of its runs. -/
theorem main_runs {lines : List HexLine} {tail : UString}
    (hplaced : FileWellPlaced 0 (lines.map HexLine.record)) (htail : Skipped tail) :
    ∃ packets, Programmer.main (hexText lines tail) = (packets, .ok .success) ∧
      Uploaded packets (combiner.runs (filePieces 0 (lines.map HexLine.record))) := by
  obtain ⟨p, buffer, packets, hmain, huploaded, hholds, hready⟩ := main_lines hplaced tail
  obtain ⟨packets', hend, huploaded'⟩ := outcome_end hready hholds htail buffer
  rw [hend] at hmain
  have hall := huploaded.append huploaded'
  rw [Combiner.pushAll_flush .nil, List.nil_append] at hall
  exact ⟨packets ++ packets', hmain, hall⟩

/-- A HEX file whose records lie where the code can place them, with anything
behind them that starts no further line, is uploaded as the maximal runs of its
pieces in one block, in their order, each as one image. -/
theorem program_uploads {lines : List HexLine} {tail : UString}
    (hplaced : FileWellPlaced 0 (lines.map HexLine.record)) (htail : Skipped tail) :
    Programmer.program (hexText lines tail) =
      ((combiner.runs (filePieces 0 (lines.map HexLine.record))).flatMap uploadsOf,
        .ok .success) := by
  obtain ⟨packets, hmain, huploaded⟩ := main_runs hplaced htail
  rw [Programmer.program, hmain, huploaded.uploads]

/-- A record for each area.  The one for the serial EEPROM goes on in the next
block. -/
def testRecords : List HexRecord :=
  [⟨0x7400, 0, [0x8A, 0x31, 0x00, 0x34], by decide, by decide⟩,
    ⟨0x043C, 0, [1, 0, 2, 0, 3, 0], by decide, by decide⟩,
    ⟨0, 4, [0, 1], by decide, by decide⟩,
    ⟨0xE000, 0, [5, 0, 6, 0], by decide, by decide⟩]

def testLines : List HexLine := testRecords.map (HexRecord.line true)

theorem program_uploads_test :
    Programmer.program (hexText testLines [0x0A]) =
      ((combiner.runs (filePieces 0 testRecords)).flatMap uploadsOf, .ok .success) :=
  program_uploads (by decide) (by decide)

/-- The last line has no line end. -/
def brokenTail : UString := ascii ":00000001FF"

set_option maxRecDepth 4096 in
theorem brokenTail_broken :
    ¬ HasNoLine brokenTail ∧ ∀ digits rest, ¬ BeginsWithLine brokenTail digits rest :=
  @readHEXFileLine_broken ⟨brokenTail, Block.fill 0⟩ _ rfl

end Clibcdc.PgmHex
