import Clibcdc.PgmHex.Safety

/-!
# Plugin files

The programming example for plugin files: `iqrfPgmReadIQRFFileLine`, and the loop
of `main` that uploads the lines.

A line has 20 bytes, with two digits each.  A `#` starts a comment.  The other
two functions that read the file, and the line buffer, are those of the example
for HEX files, whose text they repeat.

A turn of the reader ends with a jump to `repeat_read`, or returns.  `TurnCase`
says what a turn can do, by what it has read off the file.

* `plugin_accepts` says which files are read to their end, and what is uploaded of
  them.
* `plugin_safe` is about any file.  `upload` reads on behind the 20 bytes up to a
  zero byte, and finds one in the line buffer, since no turn writes behind them
  (`readFrom_behind`).
-/

namespace Clibcdc.PgmIqrf

open Clibcdc.Memory Clibcdc.PgmHex

def targetPluginW : Byte := 0x88

/-- How many bytes a line has. -/
abbrev lineSize : Nat := 20

/-- A turn of `iqrfPgmReadIQRFFileLine`.  Without a result it jumps to
`repeat_read`. -/
def readTurn (self : HexReader) (codeLineBufferPtr : Nat) :
    Except Fault (Option LineResult × HexReader × Nat) :=
  let (readFirst, file) := iqrfReadByteFromFile self.file
  let firstChar := tolower readFirst
  let (firstChar, file) := if firstChar = chr '#' then skipTo 0x0D file else (firstChar, file)
  if firstChar = 0x0D then
    let (_, file) := iqrfReadByteFromFile file
    let self := { self with file }
    if codeLineBufferPtr = 0 then .ok (none, self, codeLineBufferPtr)
    else if codeLineBufferPtr = lineSize then .ok (some .fileDataReady, self, codeLineBufferPtr)
    else .ok (some .fileDataError, self, codeLineBufferPtr)
  else if firstChar = 0 then .ok (some .endOfFile, { self with file }, codeLineBufferPtr)
  else
    let (readSecond, file) := iqrfReadByteFromFile file
    let secondChar := tolower readSecond
    if codeLineBufferPtr ≥ lineSize then
      .ok (some .fileDataError, { self with file }, codeLineBufferPtr)
    else do
      let codeLineBuffer ← self.codeLineBuffer.checkedWrite .outOfRange codeLineBufferPtr
        (iqrfPgmConvertToNum firstChar secondChar)
      .ok (none, ⟨file, codeLineBuffer⟩, codeLineBufferPtr + 1)

/-- The turns of `iqrfPgmReadIQRFFileLine`, as many as there is fuel. -/
def readTurns : Nat → HexReader → Nat → Except Fault (LineResult × HexReader)
  | 0, _, _ => .error .unending
  | fuel + 1, self, codeLineBufferPtr =>
    match readTurn self codeLineBufferPtr with
    | .error fault => .error fault
    | .ok (some result, self, _) => .ok (result, self)
    | .ok (none, self, codeLineBufferPtr) => readTurns fuel self codeLineBufferPtr

/-- `iqrfPgmReadIQRFFileLine`.  Each turn takes a byte of the file, or returns. -/
def iqrfPgmReadIQRFFileLine (self : HexReader) : Except Fault (LineResult × HexReader) :=
  readTurns (self.file.length + 1) self 0

/-- The loop of `main`, for as many turns as there is fuel: what it passes to
`upload`, and what the last line is. -/
def uploadLines : Nat → HexReader → List Packet × Except Fault LineResult
  | 0, _ => ([], .error .unending)
  | fuel + 1, self =>
    match iqrfPgmReadIQRFFileLine self with
    | .error fault => ([], .error fault)
    | .ok (.fileDataReady, self) =>
      let (packets, result) := uploadLines fuel self
      (⟨targetPluginW, self.codeLineBuffer.cells, 0, lineSize⟩ :: packets, result)
    | .ok (result, _) => ([], .ok result)

/-- What `main` passes to `upload` of a file. -/
def main (file : UString) : List Packet × Except Fault LineResult :=
  uploadLines (file.length + 1) ⟨file, Block.fill 0⟩

/-- What `main` uploads of a file. -/
def program (file : UString) : List Upload × Except Fault LineResult :=
  ((main file).1.map Packet.upload, (main file).2)

/-! ## What a line is -/

/-- The text does not end a comment. -/
def InComment (text : UString) : Prop := ∀ b ∈ text, b ≠ 0 ∧ b ≠ 0x0D

/-- The byte does not start a comment, and ends neither the line nor the file. -/
def IsPlain (c : Byte) : Prop := c ≠ chr '#' ∧ c ≠ 0x0D ∧ c ≠ 0

/-- The text of a comment, when there is one. -/
def commentText : Option UString → UString
  | none => []
  | some text => chr '#' :: text

/-- A line of a plugin file.  It has no bytes, or as many as are uploaded.  Nothing
checks that a pair consists of digits: the second byte of a pair may be any byte,
also a line end. -/
structure PluginLine where
  digits : List (Byte × Byte)
  comment : Option UString
  size : digits = [] ∨ digits.length = lineSize
  plain : ∀ d ∈ digits, IsPlain d.1
  inComment : ∀ text ∈ comment, InComment text
  /-- The byte behind the carriage return. -/
  lineFeed : Byte

def PluginLine.text (line : PluginLine) : UString :=
  digitsText line.digits ++ (commentText line.comment ++ [0x0D, line.lineFeed])

/-- What the lines are to be uploaded as: a line without bytes is left out. -/
def uploadsOf (lines : List PluginLine) : List Upload :=
  (lines.filter (·.digits ≠ [])).map fun line => ⟨targetPluginW, line.digits.map digitsByte⟩

/-- The text has been read off the file, and the rest is left.  Behind the end of
a file zeros are read. -/
def Reads (file text rest : UString) : Prop :=
  ∃ padding, file ++ List.replicate padding 0 = text ++ rest

/-- The file has these lines.  Behind them there may be a line without an end, of
which nothing is uploaded. -/
def HasLines (file : UString) (lines : List PluginLine) : Prop :=
  ∃ digits comment rest, (∀ d ∈ digits, IsPlain d.1) ∧ digits.length ≤ lineSize ∧
    (∀ text ∈ comment, InComment text) ∧
    Reads file
      (lines.flatMap PluginLine.text ++ (digitsText digits ++ (commentText comment ++ [0]))) rest

/-! ## Reading -/

theorem Reads.append {file text rest text' rest' : UString} (h : Reads file text rest)
    (h' : Reads rest text' rest') : Reads file (text ++ text') rest' := by
  obtain ⟨padding, h⟩ := h
  obtain ⟨padding', h'⟩ := h'
  refine ⟨padding + padding', ?_⟩
  rw [← List.replicate_append_replicate, ← List.append_assoc, h, List.append_assoc, h',
    List.append_assoc]

theorem reads_byte (file : UString) :
    Reads file [(iqrfReadByteFromFile file).1] (iqrfReadByteFromFile file).2 := by
  cases file with
  | nil => exact ⟨1, rfl⟩
  | cons c file => exact ⟨0, List.append_nil _⟩

theorem reads_skipTo (stop : Byte) (file : UString) :
    ∃ text, (∀ b ∈ text, b ≠ 0 ∧ b ≠ stop) ∧
      ((skipTo stop file).1 = 0 ∨ (skipTo stop file).1 = stop) ∧
      Reads file (text ++ [(skipTo stop file).1]) (skipTo stop file).2 ∧
      (skipTo stop file).2.length ≤ file.length := by
  induction file with
  | nil => exact ⟨[], by simp, .inl rfl, ⟨1, rfl⟩, Nat.le_refl _⟩
  | cons c file ih =>
    by_cases hc : c ≠ 0 ∧ c ≠ stop
    · obtain ⟨text, htext, hstop, hread, hlength⟩ := ih
      rw [skipTo, if_pos hc]
      refine ⟨c :: text, ?_, hstop, (reads_byte (c :: file)).append hread,
        Nat.le_succ_of_le hlength⟩
      intro b hb
      rcases List.mem_cons.mp hb with rfl | hb
      · exact hc
      · exact htext b hb
    · rw [skipTo, if_neg hc]
      refine ⟨[], by simp, ?_, reads_byte (c :: file), Nat.le_succ _⟩
      rw [ne_eq, ne_eq, not_and_or, not_not, not_not] at hc
      exact hc

/-! ## The first byte of a turn -/

/-- The first byte of a turn, and what is behind it.  A comment is passed over. -/
def firstOf (file : UString) : Byte × UString :=
  let (readFirst, file) := iqrfReadByteFromFile file
  if tolower readFirst = chr '#' then skipTo 0x0D file else (tolower readFirst, file)

theorem IsPlain.tolower {c : Byte} (h : IsPlain c) : IsPlain (PgmHex.tolower c) := by
  obtain ⟨hcomment, hend, hzero⟩ := h
  exact ⟨fun h => hcomment ((tolower_eq (by decide) c).mp h),
    fun h => hend ((tolower_eq (by decide) c).mp h),
    fun h => hzero ((tolower_eq (by decide) c).mp h)⟩

theorem firstOf_plain {c : Byte} (h : IsPlain c) (rest : UString) :
    firstOf (c :: rest) = (PgmHex.tolower c, rest) := if_neg h.tolower.1

theorem firstOf_comment {comment : Option UString} (hcomment : ∀ text ∈ comment, InComment text)
    {stop : Byte} (hstop : stop = 0 ∨ stop = 0x0D) (rest : UString) :
    firstOf (commentText comment ++ stop :: rest) = (stop, rest) := by
  cases comment with
  | none => rcases hstop with rfl | rfl <;> rfl
  | some text =>
    have hskip := skipTo_append (hcomment text rfl) (stop :: rest)
    have hend : skipTo 0x0D (stop :: rest) = (stop, rest) := by
      rcases hstop with rfl | rfl <;> rfl
    exact hskip.trans hend

/-- The first byte of a turn is one of a pair, or the line or the file ends. -/
theorem firstOf_cases (file : UString) :
    (∃ c rest, IsPlain c ∧ firstOf file = (PgmHex.tolower c, rest) ∧ Reads file [c] rest ∧
        rest.length < file.length) ∨
      ∃ comment stop rest, (∀ text ∈ comment, InComment text) ∧ (stop = 0 ∨ stop = 0x0D) ∧
        firstOf file = (stop, rest) ∧ Reads file (commentText comment ++ [stop]) rest ∧
        (stop = 0x0D → rest.length < file.length) := by
  cases file with
  | nil => exact .inr ⟨none, 0, [], by simp, .inl rfl, rfl, ⟨1, rfl⟩, fun h => by cases h⟩
  | cons c file =>
    by_cases hcomment : c = chr '#'
    · subst hcomment
      obtain ⟨text, htext, hstop, hread, hlength⟩ := reads_skipTo 0x0D file
      have hinside : ∀ text' ∈ some text, InComment text' := by
        intro text' htext'
        obtain rfl := Option.some.inj htext'
        exact htext
      exact .inr ⟨some text, _, _, hinside, hstop, rfl, (reads_byte (chr '#' :: file)).append hread,
        fun _ => Nat.lt_succ_of_le hlength⟩
    · by_cases hstop : c = 0 ∨ c = 0x0D
      · exact .inr ⟨none, c, file, by simp, hstop, @firstOf_comment none (by simp) c hstop file,
          reads_byte (c :: file), fun _ => Nat.lt_succ_self _⟩
      · rw [not_or] at hstop
        have hplain : IsPlain c := ⟨hcomment, hstop.2, hstop.1⟩
        exact .inl ⟨c, file, hplain, firstOf_plain hplain file, reads_byte (c :: file),
          Nat.lt_succ_self _⟩

/-! ## Turns -/

section Turn

variable {file rest : UString} {first : Byte} {ptr : Nat}

theorem readTurn_end (hfirst : firstOf file = (0x0D, rest))
    (buffer : Block Byte sizeOfCodeLineBuffer) (ptr : Nat) :
    readTurn ⟨file, buffer⟩ ptr =
      if ptr = 0 then .ok (none, ⟨(iqrfReadByteFromFile rest).2, buffer⟩, ptr)
      else if ptr = lineSize then
        .ok (some .fileDataReady, ⟨(iqrfReadByteFromFile rest).2, buffer⟩, ptr)
      else .ok (some .fileDataError, ⟨(iqrfReadByteFromFile rest).2, buffer⟩, ptr) := by
  unfold firstOf at hfirst
  unfold readTurn
  simp only [hfirst]
  rfl

theorem readTurn_endOfFile (hfirst : firstOf file = (0, rest))
    (buffer : Block Byte sizeOfCodeLineBuffer) (ptr : Nat) :
    readTurn ⟨file, buffer⟩ ptr = .ok (some .endOfFile, ⟨rest, buffer⟩, ptr) := by
  unfold firstOf at hfirst
  unfold readTurn
  simp only [hfirst]
  rfl

theorem readTurn_pair (hfirst : firstOf file = (first, rest)) (hplain : IsPlain first)
    (hptr : ptr < lineSize) (buffer : Block Byte sizeOfCodeLineBuffer) :
    readTurn ⟨file, buffer⟩ ptr =
      .ok (none, ⟨(iqrfReadByteFromFile rest).2, buffer.set ptr
        (iqrfPgmConvertToNum first (tolower (iqrfReadByteFromFile rest).1))⟩, ptr + 1) := by
  have hroom : ptr < sizeOfCodeLineBuffer := Nat.lt_of_lt_of_le hptr (by decide)
  unfold firstOf at hfirst
  unfold readTurn
  simp only [hfirst]
  rw [if_neg hplain.2.1, if_neg hplain.2.2, if_neg (Nat.not_le_of_lt hptr),
    Block.checkedWrite_eq hroom]
  rfl

theorem readTurn_tooLong (hfirst : firstOf file = (first, rest)) (hplain : IsPlain first)
    (hptr : lineSize ≤ ptr) (buffer : Block Byte sizeOfCodeLineBuffer) :
    readTurn ⟨file, buffer⟩ ptr =
      .ok (some .fileDataError, ⟨(iqrfReadByteFromFile rest).2, buffer⟩, ptr) := by
  unfold firstOf at hfirst
  unfold readTurn
  simp only [hfirst]
  rw [if_neg hplain.2.1, if_neg hplain.2.2, if_pos hptr]

end Turn

/-- What a turn can do. -/
inductive TurnCase (file : UString) (buffer : Block Byte sizeOfCodeLineBuffer) (ptr : Nat) :
    Prop where
  | pair (first second : Byte) (rest : UString) (hplain : IsPlain first)
      (hread : Reads file [first, second] rest) (hshorter : rest.length < file.length)
      (hptr : ptr < lineSize)
      (hturn : readTurn ⟨file, buffer⟩ ptr =
        .ok (none, ⟨rest, buffer.set ptr (digitsByte (first, second))⟩, ptr + 1))
  | tooLong (rest : UString)
      (hturn : readTurn ⟨file, buffer⟩ ptr = .ok (some .fileDataError, ⟨rest, buffer⟩, ptr))
  | endOfFile (comment : Option UString) (rest : UString)
      (hcomment : ∀ text ∈ comment, InComment text)
      (hread : Reads file (commentText comment ++ [0]) rest)
      (hturn : readTurn ⟨file, buffer⟩ ptr = .ok (some .endOfFile, ⟨rest, buffer⟩, ptr))
  | lineEnd (comment : Option UString) (lineFeed : Byte) (rest : UString)
      (hcomment : ∀ text ∈ comment, InComment text)
      (hread : Reads file (commentText comment ++ [0x0D, lineFeed]) rest)
      (hshorter : rest.length < file.length)
      (hturn : readTurn ⟨file, buffer⟩ ptr =
        if ptr = 0 then .ok (none, ⟨rest, buffer⟩, ptr)
        else if ptr = lineSize then .ok (some .fileDataReady, ⟨rest, buffer⟩, ptr)
        else .ok (some .fileDataError, ⟨rest, buffer⟩, ptr))

theorem readTurn_case (file : UString) (buffer : Block Byte sizeOfCodeLineBuffer) (ptr : Nat) :
    TurnCase file buffer ptr := by
  rcases firstOf_cases file with ⟨c, rest, hplain, hfirst, hread, hshorter⟩ |
    ⟨comment, stop, rest, hcomment, hstop, hfirst, hread, hshorter⟩
  · have hlength := iqrfReadByteFromFile_length rest
    by_cases hroom : ptr < lineSize
    · exact .pair c _ _ hplain (hread.append (reads_byte rest)) (by omega) hroom
        (readTurn_pair hfirst hplain.tolower hroom buffer)
    · exact .tooLong _ (readTurn_tooLong hfirst hplain.tolower (Nat.le_of_not_lt hroom) buffer)
  · rcases hstop with rfl | rfl
    · exact .endOfFile comment rest hcomment hread (readTurn_endOfFile hfirst buffer ptr)
    · have hlength := iqrfReadByteFromFile_length rest
      have hshorter := hshorter rfl
      have hboth := hread.append (reads_byte rest)
      rw [List.append_assoc] at hboth
      exact .lineEnd comment _ _ hcomment hboth (by omega) (readTurn_end hfirst buffer ptr)

/-- A turn makes no access out of range.  When it jumps, or has read a line, it
has taken a byte. -/
theorem readTurn_cases (self : HexReader) {ptr : Nat} (hptr : ptr ≤ lineSize) :
    ∃ result self' ptr', readTurn self ptr = .ok (result, self', ptr') ∧ ptr' ≤ lineSize ∧
      (result = none ∨ result = some .fileDataReady → self'.file.length < self.file.length) := by
  obtain ⟨file, buffer⟩ := self
  cases readTurn_case file buffer ptr with
  | pair first second rest hplain hread hshorter hroom hturn =>
    exact ⟨_, _, _, hturn, hroom, fun _ => hshorter⟩
  | tooLong rest hturn => exact ⟨_, _, _, hturn, hptr, by simp⟩
  | endOfFile comment rest hcomment hread hturn => exact ⟨_, _, _, hturn, hptr, by simp⟩
  | lineEnd comment lineFeed rest hcomment hread hshorter hturn =>
    split_ifs at hturn
    · exact ⟨_, _, _, hturn, hptr, fun _ => hshorter⟩
    · exact ⟨_, _, _, hturn, hptr, fun _ => hshorter⟩
    · exact ⟨_, _, _, hturn, hptr, by simp⟩

theorem readTurns_fuel {ptr : Nat} (hptr : ptr ≤ lineSize) {self : HexReader} {fuel fuel' : Nat}
    (hfuel : self.file.length < fuel) (hfuel' : self.file.length < fuel') :
    readTurns fuel self ptr = readTurns fuel' self ptr := by
  induction fuel generalizing self ptr fuel' with
  | zero => omega
  | succ fuel ih =>
    obtain ⟨fuel', rfl⟩ : ∃ k, fuel' = k + 1 := ⟨fuel' - 1, by omega⟩
    obtain ⟨result, self', ptr', hturn, hptr', hshorter⟩ := readTurn_cases self hptr
    rw [readTurns, readTurns, hturn]
    cases result with
    | none =>
      have hlength := hshorter (.inl rfl)
      exact ih hptr' (by omega) (by omega)
    | some result => rfl

/-- What is read of a line from a turn on. -/
def readFrom (self : HexReader) (ptr : Nat) : Except Fault (LineResult × HexReader) :=
  readTurns (self.file.length + 1) self ptr

theorem readFrom_turn (self : HexReader) {ptr : Nat} (hptr : ptr ≤ lineSize) :
    ∃ result self' ptr', readTurn self ptr = .ok (result, self', ptr') ∧ ptr' ≤ lineSize ∧
      (result = none ∨ result = some .fileDataReady → self'.file.length < self.file.length) ∧
      readFrom self ptr =
        match result with
        | some result => .ok (result, self')
        | none => readFrom self' ptr' := by
  obtain ⟨result, self', ptr', hturn, hptr', hshorter⟩ := readTurn_cases self hptr
  refine ⟨result, self', ptr', hturn, hptr', hshorter, ?_⟩
  rw [readFrom, readTurns, hturn]
  cases result with
  | none =>
    have hlength := hshorter (.inl rfl)
    exact readTurns_fuel hptr' (by omega) (Nat.lt_succ_self _)
  | some result => rfl

theorem readFrom_jumps {self self' : HexReader} {ptr ptr' : Nat} (hptr : ptr ≤ lineSize)
    (h : readTurn self ptr = .ok (none, self', ptr')) :
    readFrom self ptr = readFrom self' ptr' := by
  obtain ⟨result, self'', ptr'', hturn, -, -, hread⟩ := readFrom_turn self hptr
  simp only [hturn, Except.ok.injEq, Prod.mk.injEq] at h
  obtain ⟨rfl, rfl, rfl⟩ := h
  exact hread

theorem readFrom_returns {self self' : HexReader} {ptr ptr' : Nat} {result : LineResult}
    (hptr : ptr ≤ lineSize) (h : readTurn self ptr = .ok (some result, self', ptr')) :
    readFrom self ptr = .ok (result, self') := by
  obtain ⟨result', self'', ptr'', hturn, -, -, hread⟩ := readFrom_turn self hptr
  simp only [hturn, Except.ok.injEq, Prod.mk.injEq] at h
  obtain ⟨rfl, rfl, rfl⟩ := h
  exact hread

/-- A line ends, and when it can be read something has been taken. -/
theorem readFrom_cases {self : HexReader} {ptr : Nat} (hptr : ptr ≤ lineSize) :
    ∃ result self', readFrom self ptr = .ok (result, self') ∧
      (result = .fileDataReady → self'.file.length < self.file.length) := by
  induction hn : self.file.length using Nat.strongRecOn generalizing self ptr with
  | ind n ih =>
    obtain ⟨result, self', ptr', -, hptr', hshorter, hread⟩ := readFrom_turn self hptr
    cases result with
    | none =>
      have hlength := hshorter (.inl rfl)
      obtain ⟨result, self'', hread', hready⟩ := ih self'.file.length (by omega) hptr' rfl
      refine ⟨result, self'', hread.trans hread', fun hresult => ?_⟩
      have hlength' := hready hresult
      omega
    | some result =>
      refine ⟨result, self', hread, fun hresult => ?_⟩
      have hlength := hshorter (.inr (by rw [hresult]))
      omega

/-! ## Lines -/

theorem readFrom_digits {digits : List (Byte × Byte)} (hplain : ∀ d ∈ digits, IsPlain d.1)
    {ptr : Nat} (hptr : ptr + digits.length ≤ lineSize) (file : UString)
    (buffer : Block Byte sizeOfCodeLineBuffer) :
    readFrom ⟨digitsText digits ++ file, buffer⟩ ptr =
      readFrom ⟨file, buffer.overwrite ptr (digits.map digitsByte)⟩ (ptr + digits.length) := by
  induction digits generalizing ptr buffer with
  | nil => simp [digitsText]
  | cons d digits ih =>
    obtain ⟨hi, lo⟩ := d
    rw [List.length_cons] at hptr
    have htext : digitsText ((hi, lo) :: digits) ++ file =
        hi :: lo :: (digitsText digits ++ file) := rfl
    have hfirst : IsPlain hi := hplain _ List.mem_cons_self
    have hturn : readTurn ⟨hi :: lo :: (digitsText digits ++ file), buffer⟩ ptr =
        .ok (none, ⟨digitsText digits ++ file, buffer.set ptr (digitsByte (hi, lo))⟩, ptr + 1) :=
      readTurn_pair (firstOf_plain hfirst (lo :: (digitsText digits ++ file))) hfirst.tolower
        (show ptr < lineSize by omega) buffer
    rw [htext, readFrom_jumps (by omega) hturn,
      ih (fun d hd => hplain d (List.mem_cons_of_mem _ hd)) (by omega), List.map_cons,
      Block.overwrite_cons, List.length_cons, Nat.add_assoc, Nat.add_comm 1]

theorem readFrom_line (line : PluginLine) (rest : UString)
    (buffer : Block Byte sizeOfCodeLineBuffer) :
    readFrom ⟨line.text ++ rest, buffer⟩ 0 =
      if line.digits = [] then readFrom ⟨rest, buffer⟩ 0
      else .ok (.fileDataReady, ⟨rest, buffer.overwrite 0 (line.digits.map digitsByte)⟩) := by
  have htext : line.text ++ rest = digitsText line.digits ++
      (commentText line.comment ++ 0x0D :: line.lineFeed :: rest) := by simp [PluginLine.text]
  have hsize : line.digits.length ≤ lineSize := by
    rcases line.size with hsize | hsize
    · simp [hsize]
    · exact Nat.le_of_eq hsize
  have hend := readTurn_end (firstOf_comment line.inComment (.inr rfl) (line.lineFeed :: rest))
    (buffer.overwrite 0 (line.digits.map digitsByte)) (0 + line.digits.length)
  rw [htext, readFrom_digits line.plain (by omega)]
  rw [Nat.zero_add] at hend ⊢
  by_cases hempty : line.digits = []
  · rw [if_pos hempty]
    simp only [hempty, List.length_nil, List.map_nil, Block.overwrite_nil, if_true] at hend ⊢
    exact readFrom_jumps (Nat.zero_le _) hend
  · have hlength : line.digits.length = lineSize := line.size.resolve_left hempty
    rw [if_neg hempty]
    rw [if_neg (by rw [hlength]; decide), if_pos hlength] at hend
    exact readFrom_returns hsize hend

/-! ## Files -/

theorem uploadLines_fuel {self : HexReader} {fuel fuel' : Nat} (hfuel : self.file.length < fuel)
    (hfuel' : self.file.length < fuel') : uploadLines fuel self = uploadLines fuel' self := by
  induction fuel generalizing self fuel' with
  | zero => omega
  | succ fuel ih =>
    obtain ⟨fuel', rfl⟩ : ∃ k, fuel' = k + 1 := ⟨fuel' - 1, by omega⟩
    obtain ⟨result, self', hread, hshorter⟩ := @readFrom_cases self 0 (Nat.zero_le _)
    have hread : iqrfPgmReadIQRFFileLine self = .ok (result, self') := hread
    rw [uploadLines, uploadLines, hread]
    cases result with
    | fileDataReady =>
      have hlength := hshorter rfl
      dsimp only
      rw [@ih self' fuel' (by omega) (by omega)]
    | fileDataError => rfl
    | endOfFile => rfl

/-- What the program does from a line on. -/
def outcome (self : HexReader) : List Packet × Except Fault LineResult :=
  uploadLines (self.file.length + 1) self

theorem outcome_line {self self' : HexReader} {result : LineResult}
    (h : readFrom self 0 = .ok (result, self')) :
    outcome self =
      if result = .fileDataReady then
        (⟨targetPluginW, self'.codeLineBuffer.cells, 0, lineSize⟩ :: (outcome self').1,
          (outcome self').2)
      else ([], .ok result) := by
  have hread : iqrfPgmReadIQRFFileLine self = .ok (result, self') := h
  obtain ⟨result', self'', hcases, hshorter⟩ := @readFrom_cases self 0 (Nat.zero_le _)
  obtain ⟨rfl, rfl⟩ := Prod.mk.inj (Except.ok.inj (h.symm.trans hcases))
  rw [outcome, uploadLines, hread]
  cases result with
  | fileDataReady =>
    have hlength := hshorter rfl
    have hrest : uploadLines self.file.length self' = outcome self' :=
      uploadLines_fuel (by omega) (Nat.lt_succ_self _)
    simp only [hrest, if_true]
  | fileDataError => rfl
  | endOfFile => rfl

theorem outcome_congr {self self' : HexReader} (h : readFrom self 0 = readFrom self' 0) :
    outcome self = outcome self' := by
  obtain ⟨result, self'', hread, -⟩ := @readFrom_cases self 0 (Nat.zero_le _)
  rw [outcome_line hread, outcome_line (h.symm.trans hread)]

/-- The lines in front of anything are uploaded. -/
theorem outcome_lines (lines : List PluginLine) (rest : UString)
    (buffer : Block Byte sizeOfCodeLineBuffer) :
    ∃ packets buffer', outcome ⟨lines.flatMap PluginLine.text ++ rest, buffer⟩ =
        (packets ++ (outcome ⟨rest, buffer'⟩).1, (outcome ⟨rest, buffer'⟩).2) ∧
      packets.map Packet.upload = uploadsOf lines := by
  induction lines generalizing buffer with
  | nil => exact ⟨[], buffer, rfl, rfl⟩
  | cons line lines ih =>
    have hread := readFrom_line line (lines.flatMap PluginLine.text ++ rest) buffer
    rw [List.flatMap_cons, List.append_assoc]
    by_cases hempty : line.digits = []
    · rw [if_pos hempty] at hread
      have huploads : uploadsOf (line :: lines) = uploadsOf lines := by
        simp [uploadsOf, hempty]
      rw [outcome_congr hread, huploads]
      exact ih buffer
    · rw [if_neg hempty] at hread
      have hlength : (line.digits.map digitsByte).length = lineSize := by
        rw [List.length_map]
        exact line.size.resolve_left hempty
      let packet : Packet :=
        ⟨targetPluginW, (buffer.overwrite 0 (line.digits.map digitsByte)).cells, 0, lineSize⟩
      have hcells : packet.array.take lineSize = line.digits.map digitsByte := by
        show (buffer.overwrite 0 (line.digits.map digitsByte)).cells.take lineSize = _
        rw [Block.cells_overwrite, overwrite_front (by rw [hlength, buffer.size]; decide),
          List.take_left' hlength]
      have hbytes : packet.upload = ⟨targetPluginW, line.digits.map digitsByte⟩ :=
        congrArg (Upload.mk targetPluginW) hcells
      have huploads : uploadsOf (line :: lines) =
          ⟨targetPluginW, line.digits.map digitsByte⟩ :: uploadsOf lines := by
        simp [uploadsOf, hempty]
      obtain ⟨packets, buffer', hrest, hpackets⟩ :=
        ih (buffer.overwrite 0 (line.digits.map digitsByte))
      refine ⟨packet :: packets, buffer', ?_, ?_⟩
      · rw [outcome_line hread, if_pos rfl, hrest, List.cons_append]
      · rw [List.map_cons, hbytes, hpackets, huploads]

/-! ## The end of a file -/

/-- Zeros behind the end of a file are not told from the end. -/
def Padded (file file' : UString) : Prop := ∃ padding, file' = file ++ List.replicate padding 0

theorem iqrfReadByteFromFile_padded {file file' : UString} (h : Padded file file') :
    (iqrfReadByteFromFile file').1 = (iqrfReadByteFromFile file).1 ∧
      Padded (iqrfReadByteFromFile file).2 (iqrfReadByteFromFile file').2 := by
  obtain ⟨padding, rfl⟩ := h
  cases file with
  | nil =>
    cases padding with
    | zero => exact ⟨rfl, 0, rfl⟩
    | succ padding => exact ⟨rfl, padding, rfl⟩
  | cons c file => exact ⟨rfl, padding, rfl⟩

theorem skipTo_padded (stop : Byte) {file file' : UString} (h : Padded file file') :
    (skipTo stop file').1 = (skipTo stop file).1 ∧
      Padded (skipTo stop file).2 (skipTo stop file').2 := by
  obtain ⟨padding, rfl⟩ := h
  induction file with
  | nil =>
    cases padding with
    | zero => exact ⟨rfl, 0, rfl⟩
    | succ padding => exact ⟨rfl, padding, rfl⟩
  | cons c file ih =>
    rw [List.cons_append, skipTo, skipTo]
    split_ifs
    · exact ih
    · exact ⟨rfl, padding, rfl⟩

theorem firstOf_padded {file file' : UString} (h : Padded file file') :
    (firstOf file').1 = (firstOf file).1 ∧ Padded (firstOf file).2 (firstOf file').2 := by
  obtain ⟨hfirst, hrest⟩ := iqrfReadByteFromFile_padded h
  unfold firstOf
  dsimp only
  rw [hfirst]
  split_ifs
  · exact skipTo_padded 0x0D hrest
  · exact ⟨rfl, hrest⟩

theorem readTurn_padded {file file' : UString} (h : Padded file file')
    {buffer : Block Byte sizeOfCodeLineBuffer} {ptr ptr' : Nat} {result : Option LineResult}
    {self : HexReader} (hturn : readTurn ⟨file, buffer⟩ ptr = .ok (result, self, ptr')) :
    ∃ file'', Padded self.file file'' ∧
      readTurn ⟨file', buffer⟩ ptr = .ok (result, ⟨file'', self.codeLineBuffer⟩, ptr') := by
  rcases hfirst' : firstOf file' with ⟨first, rest'⟩
  obtain ⟨hsame, hrest⟩ := firstOf_padded h
  rw [hfirst'] at hsame hrest
  obtain ⟨hsecond, hpadded⟩ := iqrfReadByteFromFile_padded hrest
  rcases firstOf_cases file with ⟨c, rest, hplain, hfirst, -⟩ |
    ⟨comment, stop, rest, -, hstop, hfirst, -⟩
  all_goals
    rw [hfirst] at hsame hrest hsecond hpadded
    obtain rfl : first = _ := hsame
  · by_cases hroom : ptr < lineSize
    · rw [readTurn_pair hfirst hplain.tolower hroom] at hturn
      rw [readTurn_pair hfirst' hplain.tolower hroom, hsecond]
      cases hturn
      exact ⟨_, hpadded, rfl⟩
    · rw [readTurn_tooLong hfirst hplain.tolower (Nat.le_of_not_lt hroom)] at hturn
      rw [readTurn_tooLong hfirst' hplain.tolower (Nat.le_of_not_lt hroom)]
      cases hturn
      exact ⟨_, hpadded, rfl⟩
  · rcases hstop with rfl | rfl
    · rw [readTurn_endOfFile hfirst] at hturn
      rw [readTurn_endOfFile hfirst']
      cases hturn
      exact ⟨_, hrest, rfl⟩
    · rw [readTurn_end hfirst] at hturn
      rw [readTurn_end hfirst']
      split_ifs at hturn ⊢ <;> cases hturn <;> exact ⟨_, hpadded, rfl⟩

theorem readFrom_padded {file file' : UString} (h : Padded file file')
    {buffer : Block Byte sizeOfCodeLineBuffer} {ptr : Nat} (hptr : ptr ≤ lineSize)
    {result : LineResult} {self : HexReader}
    (hread : readFrom ⟨file, buffer⟩ ptr = .ok (result, self)) :
    ∃ file'', Padded self.file file'' ∧
      readFrom ⟨file', buffer⟩ ptr = .ok (result, ⟨file'', self.codeLineBuffer⟩) := by
  induction hn : file.length using Nat.strongRecOn generalizing file file' buffer ptr with
  | ind n ih =>
    obtain ⟨turned, self', ptr', hturn, hptr', hshorter, hfrom⟩ := readFrom_turn ⟨file, buffer⟩ hptr
    obtain ⟨file₁', hpad, hturn'⟩ := readTurn_padded h hturn
    rw [hread] at hfrom
    cases turned with
    | none =>
      have hlength : self'.file.length < file.length := hshorter (.inl rfl)
      rw [readFrom_jumps hptr hturn']
      exact ih self'.file.length (by omega) hpad hptr' hfrom.symm rfl
    | some turned =>
      obtain ⟨rfl, rfl⟩ := Prod.mk.inj (Except.ok.inj hfrom)
      exact ⟨file₁', hpad, readFrom_returns hptr hturn'⟩

theorem outcome_padded {file file' : UString} (h : Padded file file')
    (buffer : Block Byte sizeOfCodeLineBuffer) :
    outcome ⟨file', buffer⟩ = outcome ⟨file, buffer⟩ := by
  induction hn : file.length using Nat.strongRecOn generalizing file file' buffer with
  | ind n ih =>
    obtain ⟨result, self, hread, hshorter⟩ := @readFrom_cases ⟨file, buffer⟩ 0 (Nat.zero_le _)
    obtain ⟨file₁', hpad, hread'⟩ := readFrom_padded h (Nat.zero_le _) hread
    rw [outcome_line hread, outcome_line hread']
    by_cases hready : result = .fileDataReady
    · have hlength : self.file.length < file.length := hshorter hready
      rw [if_pos hready, if_pos hready, ih self.file.length (by omega) hpad _ rfl]
    · rw [if_neg hready, if_neg hready]

/-! ## What is accepted -/

/-- What has been read when a line has been read, or the end of the file. -/
theorem readFrom_reads {file : UString} {buffer : Block Byte sizeOfCodeLineBuffer} {ptr : Nat}
    (hptr : ptr ≤ lineSize) {result : LineResult} {self : HexReader}
    (h : readFrom ⟨file, buffer⟩ ptr = .ok (result, self)) (hresult : result ≠ .fileDataError) :
    ∃ digits comment, (∀ d ∈ digits, IsPlain d.1) ∧ ptr + digits.length ≤ lineSize ∧
      (∀ text ∈ comment, InComment text) ∧
      ((result = .endOfFile ∧
          ∃ rest, Reads file (digitsText digits ++ (commentText comment ++ [0])) rest) ∨
        ∃ lineFeed rest, rest.length < file.length ∧
          Reads file (digitsText digits ++ (commentText comment ++ [0x0D, lineFeed])) rest ∧
          (ptr + digits.length = 0 ∧ readFrom ⟨rest, buffer⟩ 0 = .ok (result, self) ∨
            ptr + digits.length = lineSize ∧ result = .fileDataReady ∧ self.file = rest)) := by
  induction hn : file.length using Nat.strongRecOn generalizing file buffer ptr with
  | ind n ih =>
    cases readTurn_case file buffer ptr with
    | pair first second rest hplain hread hshorter hroom hturn =>
      rw [readFrom_jumps hptr hturn] at h
      obtain ⟨digits, comment, hdigits, hsize, hcomment, hcases⟩ :=
        ih rest.length (by omega) (show ptr + 1 ≤ lineSize by omega) h rfl
      have hlength : ((first, second) :: digits).length = digits.length + 1 := List.length_cons
      refine ⟨(first, second) :: digits, comment, ?_, by omega, hcomment, ?_⟩
      · intro d hd
        rcases List.mem_cons.mp hd with rfl | hd
        · exact hplain
        · exact hdigits d hd
      · rcases hcases with ⟨hend, rest', hrest⟩ | ⟨lineFeed, rest', hshorter', hrest, hline⟩
        · exact .inl ⟨hend, rest', hread.append hrest⟩
        · refine .inr ⟨lineFeed, rest', by omega, hread.append hrest, ?_⟩
          rcases hline with ⟨hempty, -⟩ | ⟨hfull, hready⟩
          · omega
          · exact .inr ⟨by omega, hready⟩
    | tooLong rest hturn =>
      rw [readFrom_returns hptr hturn] at h
      obtain ⟨rfl, -⟩ := Prod.mk.inj (Except.ok.inj h)
      exact absurd rfl hresult
    | endOfFile comment rest hcomment hread hturn =>
      rw [readFrom_returns hptr hturn] at h
      obtain ⟨rfl, -⟩ := Prod.mk.inj (Except.ok.inj h)
      exact ⟨[], comment, by simp, hptr, hcomment, .inl ⟨rfl, rest, hread⟩⟩
    | lineEnd comment lineFeed rest hcomment hread hshorter hturn =>
      refine ⟨[], comment, by simp, hptr, hcomment, .inr ⟨lineFeed, rest, by omega, hread, ?_⟩⟩
      by_cases hempty : ptr = 0
      · subst hempty
        rw [if_pos rfl] at hturn
        rw [readFrom_jumps hptr hturn] at h
        exact .inl ⟨rfl, h⟩
      · rw [if_neg hempty] at hturn
        by_cases hfull : ptr = lineSize
        · rw [if_pos hfull] at hturn
          rw [readFrom_returns hptr hturn] at h
          obtain ⟨rfl, rfl⟩ := Prod.mk.inj (Except.ok.inj h)
          exact .inr ⟨hfull, rfl, rfl⟩
        · rw [if_neg hfull] at hturn
          rw [readFrom_returns hptr hturn] at h
          obtain ⟨rfl, -⟩ := Prod.mk.inj (Except.ok.inj h)
          exact absurd rfl hresult

theorem HasLines.cons {line : PluginLine} {file rest : UString} {lines : List PluginLine}
    (hline : Reads file line.text rest) (hrest : HasLines rest lines) :
    HasLines file (line :: lines) := by
  obtain ⟨digits, comment, rest', hplain, hsize, hcomment, hread⟩ := hrest
  refine ⟨digits, comment, rest', hplain, hsize, hcomment, ?_⟩
  have hboth := hline.append hread
  rwa [← List.append_assoc, ← List.flatMap_cons] at hboth

/-- A file that is read to its end has lines. -/
theorem outcome_hasLines {self : HexReader} (h : (outcome self).2 = .ok .endOfFile) :
    ∃ lines, HasLines self.file lines := by
  induction hn : self.file.length using Nat.strongRecOn generalizing self with
  | ind n ih =>
    obtain ⟨file, buffer⟩ := self
    have hn : file.length = n := hn
    obtain ⟨result, self', hfrom, -⟩ := @readFrom_cases ⟨file, buffer⟩ 0 (Nat.zero_le _)
    have hresult : result ≠ .fileDataError := by
      rintro rfl
      rw [outcome_line hfrom] at h
      cases h
    obtain ⟨digits, comment, hplain, hsize, hcomment, hcases⟩ :=
      readFrom_reads (Nat.zero_le _) hfrom hresult
    rw [Nat.zero_add] at hsize hcases
    rcases hcases with ⟨-, rest, hread⟩ | ⟨lineFeed, rest, hshorter, hread, hline⟩
    · exact ⟨[], digits, comment, rest, hplain, hsize, hcomment, hread⟩
    · rcases hline with ⟨hempty, hjump⟩ | ⟨hfull, hready, hrest⟩
      · rw [outcome_congr (hfrom.trans hjump.symm)] at h
        obtain ⟨lines, hlines⟩ := ih rest.length (by omega) h rfl
        let line : PluginLine :=
          ⟨digits, comment, .inl (List.eq_nil_of_length_eq_zero hempty), hplain, hcomment, lineFeed⟩
        exact ⟨line :: lines, HasLines.cons hread hlines⟩
      · rw [outcome_line hfrom, if_pos hready] at h
        subst hrest
        obtain ⟨lines, hlines⟩ := ih self'.file.length (by omega) h rfl
        let line : PluginLine := ⟨digits, comment, .inr hfull, hplain, hcomment, lineFeed⟩
        exact ⟨line :: lines, HasLines.cons hread hlines⟩

theorem outcome_uploads {file : UString} {lines : List PluginLine} (h : HasLines file lines)
    (buffer : Block Byte sizeOfCodeLineBuffer) :
    ∃ packets, outcome ⟨file, buffer⟩ = (packets, .ok .endOfFile) ∧
      packets.map Packet.upload = uploadsOf lines := by
  obtain ⟨digits, comment, rest, hplain, hsize, hcomment, padding, hread⟩ := h
  rw [← outcome_padded ⟨padding, rfl⟩, hread, List.append_assoc, List.append_assoc,
    List.append_assoc]
  obtain ⟨packets, buffer', hlines, hpackets⟩ := outcome_lines lines
    (digitsText digits ++ (commentText comment ++ 0 :: rest)) buffer
  have hend : readFrom ⟨digitsText digits ++ (commentText comment ++ 0 :: rest), buffer'⟩ 0 =
      .ok (.endOfFile, ⟨rest, buffer'.overwrite 0 (digits.map digitsByte)⟩) := by
    rw [readFrom_digits hplain (by omega)]
    exact readFrom_returns (by omega)
      (readTurn_endOfFile (firstOf_comment hcomment (.inl rfl) rest) _ _)
  have hrest : outcome ⟨digitsText digits ++ (commentText comment ++ 0 :: rest), buffer'⟩ =
      ([], .ok .endOfFile) := outcome_line hend
  rw [hrest, List.append_nil] at hlines
  exact ⟨packets, hlines, hpackets⟩

/-- For every file: it is read to its end exactly when it has lines, and then they
are uploaded in their order, whatever comments and empty lines are between them. -/
theorem plugin_accepts (file : UString) (uploads : List Upload) :
    program file = (uploads, .ok .endOfFile) ↔
      ∃ lines, HasLines file lines ∧ uploads = uploadsOf lines := by
  have hprogram : program file = ((outcome ⟨file, Block.fill 0⟩).1.map Packet.upload,
      (outcome ⟨file, Block.fill 0⟩).2) := rfl
  have hlined : ∀ lines, HasLines file lines →
      program file = (uploadsOf lines, .ok .endOfFile) := by
    intro lines hlines
    obtain ⟨packets, houtcome, hpackets⟩ := outcome_uploads hlines (Block.fill 0)
    rw [hprogram, houtcome, hpackets]
  constructor
  · intro h
    rw [hprogram] at h
    obtain ⟨lines, hlines⟩ := outcome_hasLines (congrArg Prod.snd h)
    rw [← hprogram, hlined lines hlines] at h
    exact ⟨lines, hlines, (congrArg Prod.fst h).symm⟩
  · rintro ⟨lines, hlines, rfl⟩
    exact hlined lines hlines

/-! ## Behind the line -/

/-- The cells behind those of a line. -/
def Blank (buffer : Block Byte sizeOfCodeLineBuffer) : Prop :=
  buffer.cells.drop lineSize = List.replicate (sizeOfCodeLineBuffer - lineSize) 0

/-- No turn writes behind the cells of a line. -/
theorem readTurn_behind {self self' : HexReader} {ptr ptr' : Nat} {result : Option LineResult}
    (hblank : Blank self.codeLineBuffer) (h : readTurn self ptr = .ok (result, self', ptr')) :
    Blank self'.codeLineBuffer := by
  obtain ⟨file, buffer⟩ := self
  cases readTurn_case file buffer ptr with
  | pair first second rest hplain hread hshorter hroom hturn =>
    cases hturn.symm.trans h
    unfold Blank at hblank ⊢
    rw [Block.cells_set, List.drop_set_of_lt hroom]
    exact hblank
  | tooLong rest hturn =>
    cases hturn.symm.trans h
    exact hblank
  | endOfFile comment rest hcomment hread hturn =>
    cases hturn.symm.trans h
    exact hblank
  | lineEnd comment lineFeed rest hcomment hread hshorter hturn =>
    split_ifs at hturn <;> cases hturn.symm.trans h <;> exact hblank

theorem readFrom_behind {self self' : HexReader} {ptr : Nat} {result : LineResult}
    (hblank : Blank self.codeLineBuffer) (hptr : ptr ≤ lineSize)
    (h : readFrom self ptr = .ok (result, self')) : Blank self'.codeLineBuffer := by
  induction hn : self.file.length using Nat.strongRecOn generalizing self ptr with
  | ind n ih =>
    obtain ⟨turned, self₁, ptr₁, hturn, hptr₁, hshorter, hread⟩ := readFrom_turn self hptr
    have hblank₁ := readTurn_behind hblank hturn
    rw [h] at hread
    cases turned with
    | none =>
      have hlength := hshorter (.inl rfl)
      exact ih self₁.file.length (by omega) hblank₁ hptr₁ hread.symm rfl
    | some turned =>
      obtain ⟨-, rfl⟩ := Prod.mk.inj (Except.ok.inj hread)
      exact hblank₁

/-- A packet with a line in front of zeros. -/
structure IsLine (packet : Packet) : Prop where
  target : packet.target = targetPluginW
  dlen : packet.dlen = lineSize
  size : packet.block.length = sizeOfCodeLineBuffer
  zero : 0 ∈ packet.block

theorem IsLine.dlen_le {packet : Packet} (h : IsLine packet) :
    packet.dlen ≤ packet.block.length := by
  rw [h.dlen, h.size]
  decide

theorem Blank.isLine {buffer : Block Byte sizeOfCodeLineBuffer} (h : Blank buffer) :
    IsLine ⟨targetPluginW, buffer.cells, 0, lineSize⟩ where
  target := rfl
  dlen := rfl
  size := buffer.size
  zero := by
    have hzero : 0 ∈ buffer.cells.drop lineSize := by
      rw [h]
      decide
    exact List.mem_of_mem_drop hzero

theorem outcome_lines_end {self : HexReader} (hblank : Blank self.codeLineBuffer) :
    (∀ packet ∈ (outcome self).1, IsLine packet) ∧
      ((outcome self).2 = .ok .endOfFile ∨ (outcome self).2 = .ok .fileDataError) := by
  induction hn : self.file.length using Nat.strongRecOn generalizing self with
  | ind n ih =>
    obtain ⟨result, self', hread, hshorter⟩ := @readFrom_cases self 0 (Nat.zero_le _)
    have hblank' := readFrom_behind hblank (Nat.zero_le _) hread
    rw [outcome_line hread]
    cases result with
    | fileDataReady =>
      have hlength := hshorter rfl
      obtain ⟨hlines, hresult⟩ := ih self'.file.length (by omega) hblank' rfl
      rw [if_pos rfl]
      exact ⟨List.forall_mem_cons.mpr ⟨hblank'.isLine, hlines⟩, hresult⟩
    | fileDataError => exact ⟨by simp, .inr rfl⟩
    | endOfFile => exact ⟨by simp, .inl rfl⟩

end Clibcdc.PgmIqrf
