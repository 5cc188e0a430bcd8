import Clibcdc.PgmHex.MemBlock

/-!
# The programming example, turn by turn

The loop of `main` calls `iqrfPgmPrepareMemBlock`, which has a loop of its own.
Here the two are one loop: `outcome` is what the program still does from a turn
of the inner loop on, and `main_outcome` says that it is what `main` does.

Each turn leaves less to do (`turnsLeft`), since it takes a line of the file, or
writes an image that has been kept back.  So neither loop runs out of fuel, and
`outcome_turn` unfolds `outcome` without one.
-/

namespace Clibcdc.PgmHex

open Clibcdc.Memory

/-- The image is to be written. -/
def PgmResult.Ready (result : PgmResult) : Prop := result ≠ .success ∧ result ≠ .error

instance : DecidablePred PgmResult.Ready := fun result =>
  inferInstanceAs (Decidable (result ≠ .success ∧ result ≠ .error))

/-! ## What a record can lead to -/

namespace PrepareMemBlock

theorem blockReady_ready (p : PrepareMemBlock) : p.blockReady.Ready := by
  unfold blockReady
  split_ifs <;> decide

theorem blockReady_ne (p : PrepareMemBlock) : p.blockReady ≠ .eepromBlockReady := by
  unfold blockReady
  split_ifs <;> decide

/-- What becomes of a record in the line buffer. -/
inductive Turned (p : PrepareMemBlock) : Option PgmResult → PrepareMemBlock → Prop where
  /-- It has been taken, and the next line is read. -/
  | goesOn {p' : PrepareMemBlock} (hready : p'.dataInBufferReady = false)
      (hoverflow : p'.dataOverflow = true → p.dataOverflow = true) : Turned p none p'
  /-- It has been taken, and the image is to be written. -/
  | fills {p' : PrepareMemBlock} {result : PgmResult} (hresult : result = .eeepromBlockReady ∨
        result = .eepromBlockReady ∧ (p'.memoryBlock.get 1).toNat ≤ 32)
      (hready : p'.dataInBufferReady = false) : Turned p (some result) p'
  /-- The image has something of another block, which is to be written first. -/
  | waits {p' : PrepareMemBlock} {result : PgmResult} (hresult : result = p'.blockReady)
      (hready : p'.dataInBufferReady = p.dataInBufferReady) (hoverflow : p'.dataOverflow = false)
      (hpending : p.memoryBlockNumber ≠ 0 ∨ p.dataOverflow = true) : Turned p (some result) p'
  | fails {p' : PrepareMemBlock} : Turned p (some .error) p'

theorem serialEepromRecord_turned {line : LineBuffer} {p p' : PrepareMemBlock}
    {result : Option PgmResult} (hoverflow : p.dataOverflow = false)
    (h : serialEepromRecord line p = .ok (result, p')) : Turned p result p' := by
  unfold serialEepromRecord at h
  -- an image that has just been begun is of the block of the record
  generalize hp₁ : (if p.memoryBlockNumber = 0 then p.openSerialEeprom else p) = p₁ at h
  have hready₁ : p₁.dataInBufferReady = p.dataInBufferReady := by
    rw [← hp₁]
    split_ifs <;> rfl
  have hoverflow₁ : p₁.dataOverflow = false := by
    rw [← hp₁, ← hoverflow]
    split_ifs <;> rfl
  by_cases hblock : p₁.memoryBlockNumber ≠ p₁.address / 32
  · simp only [if_pos hblock] at h
    obtain ⟨rfl, rfl⟩ := Prod.mk.inj (Except.ok.inj h)
    refine .waits rfl hready₁ hoverflow₁ (.inl fun hzero => hblock ?_)
    rw [if_pos hzero] at hp₁
    rw [← hp₁]
    rfl
  · simp only [if_neg hblock] at h
    obtain ⟨memoryBlock, -, h⟩ := checked_bind_ok h
    obtain ⟨rfl, rfl⟩ := Prod.mk.inj (Except.ok.inj h)
    by_cases hfull : p₁.address % 32 + 36 + (line.get 0).toNat / 2 > memoryBlockSize
    · simp only [if_pos hfull, if_true]
      exact .fills (.inl rfl) rfl
    · simp only [if_neg hfull, hoverflow₁, Bool.false_eq_true, if_false]
      exact .goesOn rfl (by simp)

theorem flashRecord_turned {maxAdr : Nat} {line : LineBuffer} {p p' : PrepareMemBlock}
    {result : Option PgmResult} (hoverflow : p.dataOverflow = false)
    (h : flashRecord maxAdr line p = .ok (result, p')) : Turned p result p' := by
  unfold flashRecord at h
  dsimp only at h
  generalize (if p.address % 32 * 2 < 32 then p.address % 32 * 2 + 2 else
    p.address % 32 * 2 + 4) = destinationIndex at h
  generalize (if p.address + (line.get 0).toNat / 2 > maxAdr then (maxAdr - p.address) * 2 else
    (line.get 0).toNat) = dataCounter at h
  by_cases hlong : destinationIndex + dataCounter > memoryBlockSize
  · rw [if_pos hlong] at h
    obtain ⟨rfl, rfl⟩ := Prod.mk.inj (Except.ok.inj h)
    exact .fails
  rw [if_neg hlong] at h
  by_cases hpending : p.memoryBlockNumber ≠ 0 ∧ p.memoryBlockNumber ≠ p.address / 32
  · rw [if_pos hpending] at h
    obtain ⟨rfl, rfl⟩ := Prod.mk.inj (Except.ok.inj h)
    exact .waits rfl rfl hoverflow (.inl hpending.1)
  · rw [if_neg hpending] at h
    obtain ⟨memoryBlock, -, h⟩ := checked_bind_ok h
    obtain ⟨rfl, rfl⟩ := Prod.mk.inj (Except.ok.inj h)
    exact .goesOn rfl (by simp [hoverflow])

/-- A copy leaves the cells in front of it alone. -/
theorem copyLowBytes_before {line : LineBuffer} {left cnt index : Nat}
    {memoryBlock memoryBlock' : MemoryBlock}
    (h : copyLowBytes line (· + 1) left cnt index memoryBlock = .ok memoryBlock')
    {i : Fin memoryBlockSize} (hi : i.val < index) : memoryBlock'.get i = memoryBlock.get i := by
  induction left generalizing cnt index memoryBlock with
  | zero => rw [Except.ok.inj h]
  | succ left ih =>
    rw [copyLowBytes] at h
    obtain ⟨b, -, h⟩ := checked_bind_ok h
    obtain ⟨memoryBlock₁, hwrite, h⟩ := checked_bind_ok h
    unfold Block.checkedWrite at hwrite
    split_ifs at hwrite
    rw [ih h (Nat.lt_succ_of_lt hi), ← Except.ok.inj hwrite, Block.get_set_ne _ (Nat.ne_of_gt hi)]

theorem eepromRecord_turned {line : LineBuffer} {p p' : PrepareMemBlock}
    {result : Option PgmResult} (hoverflow : p.dataOverflow = false)
    (h : eepromRecord line p = .ok (result, p')) : Turned p result p' := by
  unfold eepromRecord at h
  dsimp only at h
  by_cases hpending : p.memoryBlockNumber ≠ 0
  · rw [if_pos hpending] at h
    obtain ⟨rfl, rfl⟩ := Prod.mk.inj (Except.ok.inj h)
    exact .waits rfl rfl hoverflow (.inl hpending)
  · rw [if_neg hpending] at h
    split at h
    · obtain ⟨rfl, rfl⟩ := Prod.mk.inj (Except.ok.inj h)
      exact .fails
    · rename_i hrange
      obtain ⟨memoryBlock, hcopy, h⟩ := checked_bind_ok h
      obtain ⟨rfl, rfl⟩ := Prod.mk.inj (Except.ok.inj h)
      refine .fills (.inr ⟨rfl, ?_⟩) rfl
      show (memoryBlock.get 1).toNat ≤ 32
      rw [copyLowBytes_before hcopy (show ((1 : Fin memoryBlockSize) : Nat) < 2 by decide)]
      omega

/-- What holds after the overflow has been moved held before, since the overflow
was one that was kept back. -/
theorem Turned.of_moved {p q p' : PrepareMemBlock} {result : Option PgmResult}
    (hready : q.dataInBufferReady = p.dataInBufferReady) (hoverflow : q.dataOverflow = false)
    (hnumber : q.memoryBlockNumber = p.memoryBlockNumber ∨ p.dataOverflow = true)
    (h : Turned q result p') : Turned p result p' := by
  cases h with
  | goesOn hready' hoverflow' =>
    exact .goesOn hready' fun hover => absurd (hoverflow' hover) (by simp [hoverflow])
  | fills hresult hready' => exact .fills hresult hready'
  | waits hresult hready' hoverflow' hpending =>
    refine .waits hresult (hready'.trans hready) hoverflow' ?_
    rcases hnumber with hnumber | hover
    · exact .inl (hnumber ▸ hpending.resolve_right (by simp [hoverflow]))
    · exact .inr hover
  | fails => exact .fails

theorem locate_fields (line : LineBuffer) (p : PrepareMemBlock) :
    (p.locate line).dataInBufferReady = p.dataInBufferReady ∧
      (p.locate line).dataOverflow = false ∧
      ((p.locate line).memoryBlockNumber = p.memoryBlockNumber ∨ p.dataOverflow = true) := by
  unfold locate
  dsimp only
  split_ifs with hoverflow
  · exact ⟨rfl, rfl, .inr hoverflow⟩
  · exact ⟨rfl, by simpa using hoverflow, .inl rfl⟩

theorem locate_address (line : LineBuffer) (p : PrepareMemBlock) :
    (p.locate line).address = recordAddress line p.hiAddress ∧
      (p.locate line).hiAddress = p.hiAddress := by
  unfold locate
  dsimp only
  split_ifs
  · exact ⟨rfl, rfl⟩
  · exact ⟨rfl, rfl⟩

theorem dataRecord_turned {line : LineBuffer} {p p' : PrepareMemBlock}
    {result : Option PgmResult} (hoverflow : p.dataOverflow = false)
    (h : p.dataRecord line = .ok (result, p')) : Turned p result p' := by
  unfold dataRecord at h
  split_ifs at h
  · exact serialEepromRecord_turned hoverflow h
  · exact flashRecord_turned hoverflow h
  · exact flashRecord_turned hoverflow h
  · exact eepromRecord_turned hoverflow h
  · obtain ⟨rfl, rfl⟩ := Prod.mk.inj (Except.ok.inj h)
    exact .goesOn rfl id

theorem prepareRecord_turned {line : LineBuffer} {p p' : PrepareMemBlock}
    {result : Option PgmResult} (h : p.prepareRecord line = .ok (result, p')) :
    Turned p result p' := by
  unfold prepareRecord at h
  split_ifs at h
  · obtain ⟨hready, hoverflow, hnumber⟩ := locate_fields line p
    exact (dataRecord_turned hoverflow h).of_moved hready hoverflow hnumber
  · obtain ⟨rfl, rfl⟩ := Prod.mk.inj (Except.ok.inj h)
    exact .goesOn rfl id
  · obtain ⟨rfl, rfl⟩ := Prod.mk.inj (Except.ok.inj h)
    exact .goesOn rfl id

/-- The image of the internal EEPROM has at most 32 bytes. -/
theorem Turned.count {p p' : PrepareMemBlock} (h : Turned p (some .eepromBlockReady) p') :
    (p'.memoryBlock.get 1).toNat ≤ 32 := by
  cases h with
  | fills hresult =>
    rcases hresult with hother | ⟨-, hcount⟩
    · cases hother
    · exact hcount
  | waits hresult => exact absurd hresult.symm p'.blockReady_ne

/-- A record and what has overflowed. -/
def kept (p : PrepareMemBlock) : Nat := 2 * p.dataInBufferReady.toNat + p.dataOverflow.toNat

theorem Turned.kept {p p' : PrepareMemBlock} {result : Option PgmResult}
    (h : Turned p result p') (hready : p.dataInBufferReady = true) :
    (result = none → p'.kept + (if p'.memoryBlockNumber = 0 then 0 else 1) <
        p.kept + if p.memoryBlockNumber = 0 then 0 else 1) ∧
      ∀ r, result = some r → r.Ready →
        p'.kept < p.kept + if p.memoryBlockNumber = 0 then 0 else 1 := by
  have hp : p.kept = 2 + p.dataOverflow.toNat := by simp [PrepareMemBlock.kept, hready]
  cases h with
  | goesOn hready' hoverflow =>
    refine ⟨fun _ => ?_, by simp⟩
    have hkept : p'.kept ≤ p.dataOverflow.toNat := by
      cases hover : p'.dataOverflow with
      | true => simp [PrepareMemBlock.kept, hready', hover, hoverflow hover]
      | false => simp [PrepareMemBlock.kept, hready', hover]
    split_ifs <;> omega
  | fills hresult hready' =>
    refine ⟨by simp, fun _ _ _ => ?_⟩
    have hkept : p'.kept ≤ 1 := by
      cases hover : p'.dataOverflow <;> simp [PrepareMemBlock.kept, hready', hover]
    omega
  | waits hresult hready' hoverflow hpending =>
    refine ⟨by simp, fun _ _ _ => ?_⟩
    have hkept : p'.kept = 2 := by simp [PrepareMemBlock.kept, hready', hready, hoverflow]
    rcases hpending with hnumber | hover
    · rw [if_neg hnumber]
      omega
    · rw [hover] at hp
      simp only [Bool.toNat_true] at hp
      omega
  | fails =>
    refine ⟨by simp, fun r hr hresult => ?_⟩
    obtain rfl := Option.some.inj hr
    exact absurd rfl hresult.2

theorem endOfFile_kept {p : PrepareMemBlock} (hready : p.dataInBufferReady = false)
    (h : p.endOfFile.1.Ready) :
    p.endOfFile.2.kept < p.kept + if p.memoryBlockNumber = 0 then 0 else 1 := by
  unfold endOfFile at h ⊢
  by_cases hnumber : p.memoryBlockNumber = 0
  · rw [if_neg (not_not_intro hnumber)] at h ⊢
    rw [if_pos hnumber]
    by_cases hoverflow : p.dataOverflow = true
    · rw [if_pos hoverflow]
      simp [PrepareMemBlock.kept, iqrfPgmMoveOverflowedData, hready, hoverflow]
    · rw [if_neg hoverflow] at h
      exact absurd rfl h.1
  · rw [if_pos hnumber, if_neg hnumber]
    exact Nat.lt_succ_self _

/-- Writing an image changes nothing but the image and its counter. -/
theorem writePackets_fields (opResult : PgmResult) (state : Nat) (p : PrepareMemBlock) :
    (writePackets opResult state p).2.dataInBufferReady = p.dataInBufferReady ∧
      (writePackets opResult state p).2.dataOverflow = p.dataOverflow ∧
      (writePackets opResult state p).2.hiAddress = p.hiAddress := by
  induction state generalizing p with
  | zero => exact ⟨rfl, rfl, rfl⟩
  | succ state ih =>
    have hpacket : ∀ q : PrepareMemBlock,
        (writePacket opResult q).2.dataInBufferReady = q.dataInBufferReady ∧
          (writePacket opResult q).2.dataOverflow = q.dataOverflow ∧
          (writePacket opResult q).2.hiAddress = q.hiAddress := by
      intro q
      unfold writePacket
      cases opResult <;> dsimp only <;> (try split_ifs) <;> exact ⟨rfl, rfl, rfl⟩
    rw [writePackets]
    obtain ⟨hready, hoverflow, haddress⟩ := hpacket { p with memoryBlockProcessState := state + 1 }
    obtain ⟨hready', hoverflow', haddress'⟩ := ih { (writePacket opResult
      { p with memoryBlockProcessState := state + 1 }).2 with memoryBlockProcessState := state }
    exact ⟨hready'.trans hready, hoverflow'.trans hoverflow, haddress'.trans haddress⟩

end PrepareMemBlock

/-! ## One loop -/

namespace Programmer

/-- What is left to do: lines, a record in the buffer, what has overflowed, and
an image. -/
def turnsLeft (s : Programmer) : Nat :=
  2 * s.reader.file.length + s.prepareMemBlock.kept +
    if s.prepareMemBlock.memoryBlockNumber = 0 then 0 else 1

/-- What a turn makes of a record in the buffer of a reader. -/
def turnRecord (p : PrepareMemBlock) (reader : HexReader) :
    Except Fault (Option PgmResult × Programmer) :=
  (p.prepareRecord reader.codeLineBuffer).map fun (result, p) => (result, ⟨p, reader⟩)

theorem turnRecord_ok {p : PrepareMemBlock} {reader : HexReader} {result : Option PgmResult}
    {s' : Programmer} (h : turnRecord p reader = .ok (result, s')) :
    ∃ p', p.prepareRecord reader.codeLineBuffer = .ok (result, p') ∧ s' = ⟨p', reader⟩ := by
  unfold turnRecord at h
  rcases hrecord : p.prepareRecord reader.codeLineBuffer with _ | ⟨result', p'⟩
  · rw [hrecord] at h
    cases h
  · rw [hrecord] at h
    obtain ⟨rfl, rfl⟩ := Prod.mk.inj (Except.ok.inj h)
    exact ⟨p', rfl, rfl⟩

/-- What a turn can be. -/
inductive TurnCase (s : Programmer) : Prop where
  | record (hready : s.prepareMemBlock.dataInBufferReady = true)
      (hturn : s.prepareTurn = turnRecord s.prepareMemBlock s.reader)
  | brokenLine (reader : HexReader) (hready : s.prepareMemBlock.dataInBufferReady = false)
      (hread : iqrfPgmReadHEXFileLine s.reader = .ok (.fileDataError, reader))
      (hturn : s.prepareTurn = .ok (some .error, { s with reader }))
  | endOfFile (reader : HexReader) (hready : s.prepareMemBlock.dataInBufferReady = false)
      (hread : iqrfPgmReadHEXFileLine s.reader = .ok (.endOfFile, reader))
      (hturn : s.prepareTurn =
        .ok (some s.prepareMemBlock.endOfFile.1, ⟨s.prepareMemBlock.endOfFile.2, reader⟩))
  | line (reader : HexReader) (hready : s.prepareMemBlock.dataInBufferReady = false)
      (hread : iqrfPgmReadHEXFileLine s.reader = .ok (.fileDataReady, reader))
      (hturn : s.prepareTurn =
        turnRecord { s.prepareMemBlock with dataInBufferReady := true } reader)

theorem prepareTurn_cases (s : Programmer) : s.TurnCase := by
  by_cases hready : s.prepareMemBlock.dataInBufferReady = true
  · refine .record hready ?_
    unfold prepareTurn
    simp only [if_pos hready]
    rfl
  · have hnot : s.prepareMemBlock.dataInBufferReady = false := by simpa using hready
    obtain ⟨line, reader, hread, -⟩ := readHEXFileLine_cases s.reader
    cases line with
    | fileDataError =>
      refine .brokenLine reader hnot hread ?_
      unfold prepareTurn
      simp only [if_neg hready, hread]
    | endOfFile =>
      refine .endOfFile reader hnot hread ?_
      unfold prepareTurn
      simp only [if_neg hready, hread]
    | fileDataReady =>
      refine .line reader hnot hread ?_
      unfold prepareTurn
      simp only [if_neg hready, hread]
      rfl

theorem turnRecord_turnsLeft {p : PrepareMemBlock} (hready : p.dataInBufferReady = true)
    {reader : HexReader} {result : Option PgmResult} {s' : Programmer}
    (h : turnRecord p reader = .ok (result, s')) :
    (result = none → s'.turnsLeft < turnsLeft ⟨p, reader⟩) ∧
      ∀ r, result = some r → r.Ready →
        2 * s'.reader.file.length + s'.prepareMemBlock.kept < turnsLeft ⟨p, reader⟩ := by
  obtain ⟨p', hrecord, rfl⟩ := turnRecord_ok h
  obtain ⟨hnone, hsome⟩ := (PrepareMemBlock.prepareRecord_turned hrecord).kept hready
  constructor
  · intro hresult
    have hfewer := hnone hresult
    simp only [turnsLeft]
    omega
  · intro r hresult hr
    have hfewer := hsome r hresult hr
    simp only [turnsLeft]
    omega

/-- A turn takes a record, keeps back or moves an image, or is the last. -/
theorem prepareTurn_turnsLeft {s s' : Programmer} {result : Option PgmResult}
    (h : s.prepareTurn = .ok (result, s')) :
    (result = none → s'.turnsLeft < s.turnsLeft) ∧
      ∀ r, result = some r → r.Ready →
        2 * s'.reader.file.length + s'.prepareMemBlock.kept < s.turnsLeft := by
  cases s.prepareTurn_cases with
  | record hready hturn => exact turnRecord_turnsLeft hready (hturn ▸ h)
  | brokenLine reader hready hread hturn =>
    obtain ⟨rfl, rfl⟩ := Prod.mk.inj (Except.ok.inj (hturn.symm.trans h))
    refine ⟨by simp, fun r hr hresult => ?_⟩
    obtain rfl := Option.some.inj hr
    exact absurd rfl hresult.2
  | endOfFile reader hready hread hturn =>
    obtain ⟨rfl, rfl⟩ := Prod.mk.inj (Except.ok.inj (hturn.symm.trans h))
    refine ⟨by simp, fun r hr hresult => ?_⟩
    have hlength := readHEXFileLine_length hread
    have hlast := PrepareMemBlock.endOfFile_kept hready (Option.some.inj hr ▸ hresult)
    simp only [turnsLeft]
    omega
  | line reader hready hread hturn =>
    have hlength := readHEXFileLine_shorter hread
    have hfewer : turnsLeft ⟨{ s.prepareMemBlock with dataInBufferReady := true }, reader⟩ ≤
        s.turnsLeft := by
      simp only [turnsLeft, PrepareMemBlock.kept, hready, Bool.toNat_true, Bool.toNat_false]
      omega
    obtain ⟨hnone, hsome⟩ := turnRecord_turnsLeft rfl (hturn.symm.trans h)
    exact ⟨fun hresult => Nat.lt_of_lt_of_le (hnone hresult) hfewer,
      fun r hresult hr => Nat.lt_of_lt_of_le (hsome r hresult hr) hfewer⟩

/-- What `main` writes when an image is ready. -/
def written (opResult : PgmResult) (s : Programmer) : List Packet :=
  (s.prepareMemBlock.writePackets opResult s.prepareMemBlock.memoryBlockProcessState).1

/-- The program when the image has been written. -/
def afterWriting (opResult : PgmResult) (s : Programmer) : Programmer :=
  { s with prepareMemBlock :=
      (s.prepareMemBlock.writePackets opResult s.prepareMemBlock.memoryBlockProcessState).2 }

/-- The program when it calls `iqrfPgmPrepareMemBlock`. -/
def enter (s : Programmer) : Programmer := { s with prepareMemBlock := s.prepareMemBlock.enter }

theorem enter_turnsLeft (opResult : PgmResult) (s : Programmer) :
    (s.afterWriting opResult).enter.turnsLeft =
      2 * s.reader.file.length + s.prepareMemBlock.kept := by
  obtain ⟨hready, hoverflow, -⟩ := s.prepareMemBlock.writePackets_fields opResult
    s.prepareMemBlock.memoryBlockProcessState
  simp [turnsLeft, enter, afterWriting, PrepareMemBlock.kept, PrepareMemBlock.enter, hready,
    hoverflow]

theorem turnsLeft_lt_fuel (s : Programmer) : s.turnsLeft < loopFuel s.reader.file := by
  have hready := Bool.toNat_le s.prepareMemBlock.dataInBufferReady
  have hoverflow := Bool.toNat_le s.prepareMemBlock.dataOverflow
  unfold turnsLeft PrepareMemBlock.kept loopFuel
  split_ifs <;> omega

/-- The two loops as one, for as many turns as there is fuel. -/
def outcomeLoop : Nat → Programmer → List Packet × Except Fault PgmResult
  | 0, _ => ([], .error .unending)
  | fuel + 1, s =>
    match s.prepareTurn with
    | .error fault => ([], .error fault)
    | .ok (none, s) => outcomeLoop fuel s
    | .ok (some opResult, s) =>
      if opResult.Ready then
        let (rest, result) := outcomeLoop fuel (s.afterWriting opResult).enter
        (s.written opResult ++ rest, result)
      else ([], .ok opResult)

/-- What `main` does with the answer of `iqrfPgmPrepareMemBlock`. -/
def programRest (fuel : Nat) : Except Fault (PgmResult × Programmer) →
    List Packet × Except Fault PgmResult
  | .error fault => ([], .error fault)
  | .ok (opResult, s) =>
    if opResult.Ready then
      let (rest, result) := programLoop fuel (s.afterWriting opResult)
      (s.written opResult ++ rest, result)
    else ([], .ok opResult)

theorem programLoop_rest (fuel : Nat) (s : Programmer) :
    programLoop (fuel + 1) s =
      programRest fuel (prepareLoop (loopFuel s.enter.reader.file) s.enter) := by
  have hcall : s.iqrfPgmPrepareMemBlock = prepareLoop (loopFuel s.enter.reader.file) s.enter := rfl
  rw [programLoop, ← hcall]
  rcases s.iqrfPgmPrepareMemBlock with _ | ⟨opResult, s'⟩
  · rfl
  · cases opResult <;> rfl

/-- With more fuel than there are turns, the nested loops do what the one loop
does. -/
theorem programRest_outcomeLoop {n : Nat} : ∀ {s : Programmer} {fuel fuel' fuel'' : Nat},
    s.turnsLeft < n → s.turnsLeft < fuel → s.turnsLeft ≤ fuel' → s.turnsLeft < fuel'' →
      programRest fuel' (prepareLoop fuel s) = outcomeLoop fuel'' s := by
  induction n with
  | zero => exact fun h => absurd h (Nat.not_lt_zero _)
  | succ n ih =>
    intro s fuel fuel' fuel'' hn hfuel hfuel' hfuel''
    obtain ⟨fuel, rfl⟩ : ∃ k, fuel = k + 1 := ⟨fuel - 1, by omega⟩
    obtain ⟨fuel'', rfl⟩ : ∃ k, fuel'' = k + 1 := ⟨fuel'' - 1, by omega⟩
    rw [prepareLoop, outcomeLoop]
    rcases hturn : s.prepareTurn with fault | ⟨_ | opResult, s'⟩
    · rfl
    · have hfewer := (prepareTurn_turnsLeft hturn).1 rfl
      exact ih (by omega) (by omega) (by omega) (by omega)
    · by_cases hready : opResult.Ready
      · have hfewer := (prepareTurn_turnsLeft hturn).2 opResult rfl hready
        have henter := enter_turnsLeft opResult s'
        obtain ⟨fuel', rfl⟩ : ∃ k, fuel' = k + 1 := ⟨fuel' - 1, by omega⟩
        have hrest : programLoop (fuel' + 1) (s'.afterWriting opResult) =
            outcomeLoop fuel'' (s'.afterWriting opResult).enter := by
          rw [programLoop_rest]
          exact ih (by omega) (turnsLeft_lt_fuel _) (by omega) (by omega)
        simp only [programRest, if_pos hready, hrest]
      · simp only [programRest, if_neg hready]

/-- What the program does from a turn on. -/
def outcome (s : Programmer) : List Packet × Except Fault PgmResult :=
  outcomeLoop (s.turnsLeft + 1) s

theorem outcomeLoop_eq {s : Programmer} {fuel : Nat} (h : s.turnsLeft < fuel) :
    outcomeLoop fuel s = s.outcome :=
  (programRest_outcomeLoop (Nat.lt_succ_self _) h (Nat.le_refl _) h).symm.trans
    (programRest_outcomeLoop (Nat.lt_succ_self _) h (Nat.le_refl _) (Nat.lt_succ_self _))

theorem main_outcome (file : UString) : main file = (start file).enter.outcome := by
  have hstart : (start file).enter.turnsLeft = 2 * file.length := rfl
  have hfuel : loopFuel file = 2 * file.length + 4 + 1 := rfl
  rw [main, hfuel, programLoop_rest]
  exact programRest_outcomeLoop (Nat.lt_succ_self _) (turnsLeft_lt_fuel _) (by omega) (by omega)

/-- A turn, and what is done from the next one on. -/
theorem outcome_turn (s : Programmer) :
    s.outcome =
      match s.prepareTurn with
      | .error fault => ([], .error fault)
      | .ok (none, s) => s.outcome
      | .ok (some opResult, s) =>
        if opResult.Ready then
          (s.written opResult ++ (s.afterWriting opResult).enter.outcome.1,
            (s.afterWriting opResult).enter.outcome.2)
        else ([], .ok opResult) := by
  rw [outcome, outcomeLoop]
  rcases hturn : s.prepareTurn with fault | ⟨_ | opResult, s'⟩
  · rfl
  · exact outcomeLoop_eq ((prepareTurn_turnsLeft hturn).1 rfl)
  · by_cases hready : opResult.Ready
    · have hfewer := (prepareTurn_turnsLeft hturn).2 opResult rfl hready
      have henter := enter_turnsLeft opResult s'
      have hrest : outcomeLoop s.turnsLeft (s'.afterWriting opResult).enter =
          (s'.afterWriting opResult).enter.outcome := outcomeLoop_eq (by omega)
      simp only [if_pos hready, hrest]
    · simp only [if_neg hready]

/-- An invariant of the turns: what is passed on the way is good, and the program
ends as the turns do. -/
theorem outcome_invariant {Inv : Programmer → Prop} {Good : Packet → Prop}
    {Ends : Except Fault PgmResult → Prop}
    (hfault : ∀ s fault, Inv s → s.prepareTurn = .error fault → Ends (.error fault))
    (hlast : ∀ s opResult s', Inv s → s.prepareTurn = .ok (some opResult, s') → ¬ opResult.Ready →
      Ends (.ok opResult))
    (hturn : ∀ s s', Inv s → s.prepareTurn = .ok (none, s') → Inv s')
    (hwrites : ∀ s opResult s', Inv s → s.prepareTurn = .ok (some opResult, s') →
      opResult.Ready → (∀ packet ∈ s'.written opResult, Good packet) ∧
        Inv (s'.afterWriting opResult).enter)
    {s : Programmer} (h : Inv s) : (∀ packet ∈ s.outcome.1, Good packet) ∧ Ends s.outcome.2 := by
  induction hn : s.turnsLeft using Nat.strongRecOn generalizing s with
  | ind n ih =>
    rw [outcome_turn]
    rcases hcase : s.prepareTurn with fault | ⟨_ | opResult, s'⟩
    · exact ⟨by simp, hfault s fault h hcase⟩
    · have hfewer := (prepareTurn_turnsLeft hcase).1 rfl
      exact ih _ (by omega) (hturn s s' h hcase) rfl
    · by_cases hready : opResult.Ready
      · have hfewer := (prepareTurn_turnsLeft hcase).2 opResult rfl hready
        have henter := enter_turnsLeft opResult s'
        obtain ⟨hgood, hinv⟩ := hwrites s opResult s' h hcase hready
        obtain ⟨hrest, hends⟩ := ih _ (by omega) hinv rfl
        simp only [if_pos hready]
        refine ⟨?_, hends⟩
        intro packet hpacket
        rcases List.mem_append.mp hpacket with hpacket | hpacket
        · exact hgood packet hpacket
        · exact hrest packet hpacket
      · simp only [if_neg hready]
        exact ⟨by simp, hlast s opResult s' h hcase hready⟩

end Programmer

end Clibcdc.PgmHex
