import AscCpp.Core.Status
import AscCpp.Core.Text

/-!
# Io — exact transfers over partial ones

A source or a sink answers every call as it likes: with an error, with no progress, with a part of
what it was asked for, or with more than that.  The loops count their calls by their fuel.

- `readExactLoop_ok_iff`, `writeAllLoop_ok_iff`: what the answers are when a loop succeeds.
- `readTextLoop_eq`: the loop over the chunks of a text file, for every pattern of partial reads.
- `io_transfers_exactly`: the three functions.
-/

namespace AscCpp
namespace Core

/-! ## Sources and sinks -/

/-- `ByteSource::ReadSome` on a span: its count, the span that it leaves and the source after it. -/
structure ByteSource (State : Type) where
  readSome : State → ByteString → Result Nat × ByteString × State
  length_eq : ∀ state span, (readSome state span).2.1.length = span.length

/-- `ByteSink::WriteSome` on a span. -/
structure ByteSink (State : Type) where
  writeSome : State → ByteString → Result Nat × State

variable {State : Type}

/-- The loop of `ReadExact`, with the destination and the source that it leaves. -/
def readExactLoop (source : ByteSource State) :
    Nat → State → ByteString → Nat → Option (Result Unit × ByteString × State)
  | 0, state, destination, completed =>
    if completed < destination.length then none else some (.ok (), destination, state)
  | fuel + 1, state, destination, completed =>
    if completed < destination.length then
      -- The source sees what is missing of the destination, and hands back all of it.
      let call := source.readSome state (destination.drop completed)
      let written := destination.take completed ++ call.2.1
      match call.1 with
      | .error status => some (.error status, written, call.2.2)
      | .ok count =>
        if count = 0 then
          some (.error
            { code := .endOfFile
              message :=
                if completed = 0 then "EOF before exact read began"
                else "Short input before exact read completed" }, written, call.2.2)
        else if count > destination.length - completed then
          some (.error
            { code := .internal, message := "ByteSource returned more bytes than requested" },
            written, call.2.2)
        else
          readExactLoop source fuel call.2.2 written (completed + count)
    else
      some (.ok (), destination, state)

def readExact (source : ByteSource State) (fuel : Nat) (state : State) (destination : ByteString) :
    Option (Result Unit × ByteString × State) :=
  readExactLoop source fuel state destination 0

/-- The loop of `WriteAll`, with the sink that it leaves. -/
def writeAllLoop (sink : ByteSink State) (source : ByteString) :
    Nat → State → Nat → Option (Result Unit × State)
  | 0, state, completed => if completed < source.length then none else some (.ok (), state)
  | fuel + 1, state, completed =>
    if completed < source.length then
      let call := sink.writeSome state (source.drop completed)
      match call.1 with
      | .error status => some (.error status, call.2)
      | .ok count =>
        if count = 0 then
          some (.error
            { code := .io, message := "ByteSink made no progress during WriteAll" }, call.2)
        else if count > source.length - completed then
          some (.error
            { code := .internal, message := "ByteSink consumed more bytes than requested" }, call.2)
        else
          writeAllLoop sink source fuel call.2 (completed + count)
    else
      some (.ok (), state)

def writeAll (sink : ByteSink State) (fuel : Nat) (state : State) (source : ByteString) :
    Option (Result Unit × State) :=
  writeAllLoop sink source fuel state 0

/-! ## Files -/

/-- The functions of the C library on the file of a world.  `fopen` opens a path for reading,
`fread` reads with `errno` cleared, and `fclose` tells whether it succeeded. -/
structure Stdio (World : Type) where
  fopen : ByteString → World → Bool × World
  fread : World → Nat → ByteString × World
  fread_le : ∀ world size, (fread world size).1.length ≤ size
  ferror : World → Bool
  fclose : World → Bool × World
  errno : World → Int

structure File where
  isOpen : Bool
  readable : Bool
  writable : Bool
  deriving DecidableEq, Repr

variable {World : Type}

namespace File

/-- `OpenRead`. -/
def openRead (stdio : Stdio World) (path : ByteString) (world : World) : Result File × World :=
  let opened := stdio.fopen path world
  if opened.1 then
    (.ok ⟨true, true, false⟩, opened.2)
  else
    (.error
      { code := .io
        message := "Unable to open local file"
        provider := "system"
        nativeCode := stdio.errno opened.2 }, opened.2)

/-- `ReadSome`, with the destination that it leaves. -/
def readSome (stdio : Stdio World) (file : File) (world : World) (destination : ByteString) :
    Result Nat × ByteString × World :=
  if destination.isEmpty then
    (.ok 0, destination, world)
  else if ¬ file.isOpen ∨ ¬ file.readable then
    (.error { code := .invalidState, message := "File is not open for reading" }, destination, world)
  else
    let bytes := stdio.fread world destination.length
    let written := bytes.1 ++ destination.drop bytes.1.length
    if bytes.1.length = 0 ∧ stdio.ferror bytes.2 then
      (.error
        { code := .io
          message := "Local-file read failed"
          provider := "system"
          nativeCode := stdio.errno bytes.2 }, written, bytes.2)
    else
      (.ok bytes.1.length, written, bytes.2)

/-- `Close`; the destructor closes an open file in the same way and ignores the status. -/
def close (stdio : Stdio World) (file : File) (world : World) : Result Unit × World :=
  if ¬ file.isOpen then
    (.ok (), world)
  else
    let closed := stdio.fclose world
    if closed.1 then
      (.ok (), closed.2)
    else
      (.error { code := .io, nativeCode := stdio.errno closed.2 }, closed.2)

end File

/-- The status of a text file above the limit. -/
def textFileTooLong : Status :=
  { code := .overflow, message := "Text file exceeds the configured size limit" }

/-- The loop of `ReadTextFile`.  Without a value the remaining size is below zero or a request
exceeds the chunk; an inner none says that the fuel does not suffice. -/
def readTextLoop (stdio : Stdio World) (file : File) (maximumBytes : Nat) :
    Nat → World → ByteString → ByteString → Option (Option (Result ByteString × World))
  | 0, _, _, _ => some none
  | fuel + 1, world, chunk, output =>
    if maximumBytes < output.length then
      none
    else
      let remaining := maximumBytes - output.length
      let request := if remaining < chunk.length then remaining + 1 else chunk.length
      if request > chunk.length then
        none
      else
        let call := file.readSome stdio world (chunk.take request)
        let chunk := call.2.1 ++ chunk.drop request
        match call.1 with
        | .error status => some (some (.error status, call.2.2))
        | .ok count =>
          if count = 0 then
            some (some (.ok output, call.2.2))
          else if count > remaining then
            some (some (.error textFileTooLong, call.2.2))
          else
            readTextLoop stdio file maximumBytes fuel call.2.2 chunk (output ++ chunk.take count)

/-- `kChunkSize`. -/
def chunkSize : Nat := 4096

def readTextFile (stdio : Stdio World) (fuel : Nat) (path : ByteString) (maximumBytes : Nat)
    (world : World) : Option (Option (Result ByteString × World)) :=
  match File.openRead stdio path world with
  | (.error status, world) => some (some (.error status, world))
  | (.ok file, world) => do
    let loop ← readTextLoop stdio file maximumBytes fuel world (List.replicate chunkSize 0) []
    some (loop.map fun result =>
      let closed := file.close stdio result.2
      match result.1 with
      | .error status => (.error status, closed.2)
      | .ok output => (closed.1.map fun _ => output, closed.2))

/-! ## Exact reads -/

/-- The source answers the calls for what is left of a span with pieces of it, one after the
other. -/
inductive Delivers (source : ByteSource State) : State → ByteString → List ByteString → State → Prop
  | nil (state : State) (span : ByteString) : Delivers source state span [] state
  | cons {state next last : State} {span piece rest : ByteString} {pieces : List ByteString}
      (hcall : source.readSome state span = (.ok piece.length, piece ++ rest, next))
      (hrest : Delivers source next rest pieces last) :
      Delivers source state span (piece :: pieces) last

theorem readExactLoop_done (source : ByteSource State) (fuel : Nat) (state : State)
    (destination : ByteString) :
    readExactLoop source fuel state destination destination.length =
      some (.ok (), destination, state) := by
  cases fuel <;> simp [readExactLoop]

/-- One call with a count in range moves on by that count. -/
theorem readExactLoop_call (source : ByteSource State) (fuel : Nat) {state next : State}
    {front span piece rest : ByteString}
    (hcall : source.readSome state span = (.ok piece.length, piece ++ rest, next))
    (hpiece : piece ≠ []) :
    readExactLoop source (fuel + 1) state (front ++ span) front.length =
      readExactLoop source fuel next (front ++ piece ++ rest) (front ++ piece).length := by
  have hlength := source.length_eq state span
  rw [hcall, List.length_append] at hlength
  have hpositive : 0 < piece.length := List.length_pos_iff.2 hpiece
  have hless : front.length < (front ++ span).length := by
    rw [List.length_append]
    omega
  rw [readExactLoop, if_pos hless]
  simp only [List.drop_left, List.take_left, hcall, hpositive.ne', if_false]
  rw [if_neg (by rw [List.length_append]; omega), List.append_assoc, List.length_append]

/-- Any other answer ends the loop with an error. -/
theorem readExactLoop_refuses (source : ByteSource State) (fuel : Nat) {state : State}
    {front span : ByteString} (hspan : span ≠ [])
    (hcall : ¬∃ piece rest next, piece ≠ [] ∧
      source.readSome state span = (.ok piece.length, piece ++ rest, next)) :
    ∃ status written next, readExactLoop source (fuel + 1) state (front ++ span) front.length =
      some (.error status, written, next) := by
  have hpositive : 0 < span.length := List.length_pos_iff.2 hspan
  have hless : front.length < (front ++ span).length := by
    rw [List.length_append]
    omega
  have hlength := source.length_eq state span
  rw [readExactLoop, if_pos hless]
  simp only [List.drop_left, List.take_left, List.length_append, Nat.add_sub_cancel_left]
  rcases hanswer : source.readSome state span with ⟨answer, written, next⟩
  simp only [hanswer] at hlength
  rcases answer with status | count
  · exact ⟨_, _, _, rfl⟩
  · simp only
    -- A count of zero or beyond the span is one of the two errors of the loop itself.
    by_cases hzero : count = 0
    · exact ⟨_, _, _, if_pos hzero⟩
    · by_cases hrange : count > span.length
      · rw [if_neg hzero, if_pos hrange]
        exact ⟨_, _, _, rfl⟩
      · -- A positive count in range hands over the piece in front of the rest.
        have hpiece : (written.take count).length = count := by
          rw [List.length_take]
          omega
        refine absurd ⟨written.take count, written.drop count, next, ?_, ?_⟩ hcall
        · exact List.length_pos_iff.1 (by omega)
        · rw [hanswer, hpiece, List.take_append_drop]

theorem Delivers.of_nil {source : ByteSource State} {state last : State} {pieces : List ByteString}
    {span : ByteString} (h : Delivers source state span pieces last)
    (hpieces : ∀ piece ∈ pieces, piece ≠ []) (hlength : pieces.flatten.length = 0) :
    pieces = [] ∧ last = state := by
  cases h with
  | nil => exact ⟨rfl, rfl⟩
  | @cons _ _ _ _ piece rest pieces hcall hrest =>
    have hpiece := List.length_pos_iff.2 (hpieces piece List.mem_cons_self)
    rw [List.flatten_cons, List.length_append] at hlength
    omega

theorem readExactLoop_nil (source : ByteSource State) (fuel : Nat) (state : State)
    (front : ByteString) :
    readExactLoop source fuel state (front ++ []) front.length ≠ none ∧
    ∀ filled last,
      readExactLoop source fuel state (front ++ []) front.length = some (.ok (), filled, last) ↔
        ∃ pieces, Delivers source state [] pieces last ∧ (∀ piece ∈ pieces, piece ≠ []) ∧
          pieces.flatten.length = ([] : ByteString).length ∧ filled = front ++ pieces.flatten := by
  rw [List.append_nil, readExactLoop_done]
  refine ⟨Option.some_ne_none _, fun filled last => ⟨fun heq => ?_, ?_⟩⟩
  · simp only [Option.some.injEq, Prod.mk.injEq, true_and] at heq
    rcases heq with ⟨rfl, rfl⟩
    exact ⟨[], .nil _ _, by simp, rfl, by simp⟩
  · rintro ⟨pieces, hdelivers, hpieces, hlength, rfl⟩
    rcases hdelivers.of_nil hpieces hlength with ⟨rfl, rfl⟩
    simp

/-- The loop succeeds on a span exactly when the pieces fill it. -/
theorem readExactLoop_ok_iff (source : ByteSource State) (fuel : Nat) :
    ∀ (state : State) (front span : ByteString), span.length ≤ fuel →
      readExactLoop source fuel state (front ++ span) front.length ≠ none ∧
      ∀ filled last,
        readExactLoop source fuel state (front ++ span) front.length = some (.ok (), filled, last) ↔
          ∃ pieces, Delivers source state span pieces last ∧ (∀ piece ∈ pieces, piece ≠ []) ∧
            pieces.flatten.length = span.length ∧ filled = front ++ pieces.flatten := by
  induction fuel with
  | zero =>
    intro state front span hfuel
    obtain rfl : span = [] := List.length_eq_zero_iff.1 (Nat.le_zero.1 hfuel)
    exact readExactLoop_nil source 0 state front
  | succ fuel ih =>
    intro state front span hfuel
    by_cases hspan : span = []
    · subst hspan
      exact readExactLoop_nil source (fuel + 1) state front
    by_cases hcall : ∃ piece rest next, piece ≠ [] ∧
        source.readSome state span = (.ok piece.length, piece ++ rest, next)
    · rcases hcall with ⟨piece, rest, next, hpiece, hcall⟩
      have hlength := source.length_eq state span
      simp only [hcall, List.length_append] at hlength
      have hpositive : 0 < piece.length := List.length_pos_iff.2 hpiece
      rcases ih next (front ++ piece) rest (by omega) with ⟨hreturns, hok⟩
      rw [readExactLoop_call source fuel hcall hpiece]
      refine ⟨hreturns, fun filled last => (hok filled last).trans ⟨?_, ?_⟩⟩
      · rintro ⟨pieces, hdelivers, hpieces, hfilled, rfl⟩
        refine ⟨piece :: pieces, .cons hcall hdelivers, List.forall_mem_cons.2 ⟨hpiece, hpieces⟩,
          ?_, ?_⟩
        · rw [List.flatten_cons, List.length_append]
          omega
        · rw [List.flatten_cons, List.append_assoc]
      · rintro ⟨pieces, hdelivers, hpieces, hfilled, rfl⟩
        cases hdelivers with
        | nil =>
          rw [List.flatten_nil, List.length_nil] at hfilled
          exact absurd (List.length_eq_zero_iff.1 hfilled.symm) hspan
        | @cons _ _ _ _ piece' rest' pieces hcall' hrest =>
          -- The source answers once, so the first pieces agree.
          rw [hcall] at hcall'
          simp only [Prod.mk.injEq, Except.ok.injEq] at hcall'
          rcases hcall' with ⟨hsame, hwritten, rfl⟩
          rcases List.append_inj hwritten hsame with ⟨rfl, rfl⟩
          rw [List.flatten_cons, List.length_append] at hfilled
          refine ⟨pieces, hrest, (List.forall_mem_cons.1 hpieces).2, by omega, ?_⟩
          rw [List.flatten_cons, List.append_assoc]
    · rcases readExactLoop_refuses source fuel hspan hcall with ⟨status, written, next, hrun⟩
      rw [hrun]
      refine ⟨Option.some_ne_none _, fun filled last => ⟨fun heq => by simp at heq, ?_⟩⟩
      rintro ⟨pieces, hdelivers, hpieces, hfilled, -⟩
      cases hdelivers with
      | nil =>
        rw [List.flatten_nil, List.length_nil] at hfilled
        exact absurd (List.length_eq_zero_iff.1 hfilled.symm) hspan
      | cons hcall' hrest =>
        exact absurd ⟨_, _, _, hpieces _ List.mem_cons_self, hcall'⟩ hcall

/-! ## Whole writes -/

/-- The sink answers the calls for what is left of a span by the lengths of its next pieces. -/
inductive Consumes (sink : ByteSink State) : State → ByteString → List ByteString → State → Prop
  | nil (state : State) (span : ByteString) : Consumes sink state span [] state
  | cons {state next last : State} {piece rest : ByteString} {pieces : List ByteString}
      (hcall : sink.writeSome state (piece ++ rest) = (.ok piece.length, next))
      (hrest : Consumes sink next rest pieces last) :
      Consumes sink state (piece ++ rest) (piece :: pieces) last

/-- A sink is a source that leaves its span as it is. -/
def ByteSink.asSource (sink : ByteSink State) : ByteSource State where
  readSome state span := ((sink.writeSome state span).1, span, (sink.writeSome state span).2)
  length_eq _ _ := rfl

theorem delivers_asSource {sink : ByteSink State} {state last : State} {span : ByteString}
    {pieces : List ByteString} (hflatten : pieces.flatten = span) :
    Delivers sink.asSource state span pieces last ↔ Consumes sink state span pieces last := by
  constructor
  · intro h
    induction h with
    | nil state span => exact .nil state span
    | @cons state next last span piece rest pieces hcall hrest ih =>
      simp only [ByteSink.asSource, Prod.mk.injEq] at hcall
      rcases hcall with ⟨hanswer, rfl, hnext⟩
      exact .cons (Prod.ext hanswer hnext) (ih (List.append_cancel_left hflatten))
  · intro h
    induction h with
    | nil state span => exact .nil state span
    | cons hcall hrest ih =>
      refine .cons ?_ (ih (List.append_cancel_left hflatten))
      simp only [ByteSink.asSource, hcall]

/-- Up to its statuses, `WriteAll` is `ReadExact` from the sink. -/
theorem writeAllLoop_eq (sink : ByteSink State) (source : ByteString) (fuel : Nat) (state : State)
    (completed : Nat) :
    (writeAllLoop sink source fuel state completed).map
        (fun result => (result.1.toOption, source, result.2)) =
      (readExactLoop sink.asSource fuel state source completed).map
        (fun result => (result.1.toOption, result.2)) := by
  -- The sink, read as a source that hands back the span as it is, answers every call the same.
  induction fuel generalizing state completed with
  | zero =>
    rw [writeAllLoop, readExactLoop]
    split <;> rfl
  | succ fuel ih =>
    rw [writeAllLoop, readExactLoop]
    by_cases hless : completed < source.length
    · simp only [hless, if_true, ByteSink.asSource, List.take_append_drop]
      rcases (sink.writeSome state (source.drop completed)).1 with status | count
      · rfl
      · simp only
        by_cases hzero : count = 0
        · simp only [hzero, if_true, Option.map_some]
          rfl
        · by_cases hrange : count > source.length - completed
          · simp only [hzero, hrange, if_true, if_false, Option.map_some]
            rfl
          · simp only [hzero, hrange, if_false]
            exact ih _ _
    · simp only [hless, if_false]
      rfl

/-- A result that is a success, read off without its status. -/
theorem map_toOption_eq_some_iff {α : Type} {run : Option (Result Unit × α)} {value : α} :
    run.map (fun result => (result.1.toOption, result.2)) = some (some (), value) ↔
      run = some (.ok (), value) := by
  rcases run with _ | ⟨status | ⟨⟨⟩⟩, other⟩ <;> simp [Except.toOption]

/-- The loop succeeds on a span exactly when the sink consumes all of it. -/
theorem writeAllLoop_ok_iff (sink : ByteSink State) {fuel : Nat} {source : ByteString}
    (hfuel : source.length ≤ fuel) (state : State) :
    writeAllLoop sink source fuel state 0 ≠ none ∧
      ∀ last, writeAllLoop sink source fuel state 0 = some (.ok (), last) ↔
        ∃ pieces, Consumes sink state source pieces last ∧ (∀ piece ∈ pieces, piece ≠ []) ∧
          pieces.flatten = source := by
  have hloop := writeAllLoop_eq sink source fuel state 0
  rcases readExactLoop_ok_iff sink.asSource fuel state [] source hfuel with ⟨hreturns, hok⟩
  simp only [List.nil_append, List.length_nil] at hreturns hok
  constructor
  · intro hnone
    rw [hnone, Option.map_none] at hloop
    exact hreturns (Option.map_eq_none_iff.1 hloop.symm)
  · intro last
    -- Successes of both loops correspond, since the statuses of failures are all that differs.
    have hsuccess : writeAllLoop sink source fuel state 0 = some (.ok (), last) ↔
        readExactLoop sink.asSource fuel state source 0 = some (.ok (), source, last) := by
      rw [← map_toOption_eq_some_iff, ← map_toOption_eq_some_iff, ← hloop]
      rcases writeAllLoop sink source fuel state 0 with _ | ⟨status | ⟨⟨⟩⟩, other⟩ <;> simp
    rw [hsuccess, hok]
    constructor
    · rintro ⟨pieces, hdelivers, hpieces, -, hflatten⟩
      exact ⟨pieces, (delivers_asSource hflatten.symm).1 hdelivers, hpieces, hflatten.symm⟩
    · rintro ⟨pieces, hconsumes, hpieces, hflatten⟩
      exact ⟨pieces, (delivers_asSource hflatten).2 hconsumes, hpieces, by rw [hflatten],
        hflatten.symm⟩

/-! ## Text files -/

/-- The open file of a world has some content left, which is read and closed without an error, in
parts of any size. -/
structure ReadsContent (stdio : Stdio World) (Left : World → ByteString → Prop) : Prop where
  read : ∀ world content size, Left world content → 0 < size →
    ∃ rest, content = (stdio.fread world size).1 ++ rest ∧ Left (stdio.fread world size).2 rest ∧
      ((stdio.fread world size).1 = [] → content = [])
  noError : ∀ world content size, Left world content → 0 < size →
    stdio.ferror (stdio.fread world size).2 = false
  closes : ∀ world content, Left world content → (stdio.fclose world).1 = true

/-- A call for part of the chunk hands over the next part of the content. -/
theorem readSome_eq {stdio : Stdio World} {Left : World → ByteString → Prop}
    (h : ReadsContent stdio Left) {world : World} {content : ByteString}
    (hleft : Left world content) {span : ByteString} (hspan : span ≠ []) :
    ∃ piece rest next, content = piece ++ rest ∧ piece.length ≤ span.length ∧ Left next rest ∧
      (piece = [] → content = []) ∧
      File.readSome stdio ⟨true, true, false⟩ world span =
        (.ok piece.length, piece ++ span.drop piece.length, next) := by
  have hpositive : 0 < span.length := List.length_pos_iff.2 hspan
  rcases h.read world content span.length hleft hpositive with ⟨rest, hsplit, hnext, hempty⟩
  refine ⟨_, rest, _, hsplit, stdio.fread_le world span.length, hnext, hempty, ?_⟩
  simp [File.readSome, hspan, h.noError world content span.length hleft hpositive]

/-- From some output on, the loop appends what is left of the content, as long as it fits. -/
theorem readTextLoop_eq {stdio : Stdio World} {Left : World → ByteString → Prop}
    (h : ReadsContent stdio Left) {maximumBytes : Nat} (fuel : Nat) :
    ∀ (world : World) (content chunk output : ByteString), Left world content →
      content.length < fuel → output.length ≤ maximumBytes → chunk ≠ [] →
      ∃ next rest, Left next rest ∧
        readTextLoop stdio ⟨true, true, false⟩ maximumBytes fuel world chunk output =
          some (some (if (output ++ content).length ≤ maximumBytes then .ok (output ++ content)
            else .error textFileTooLong, next)) := by
  induction fuel with
  | zero => omega
  | succ fuel ih =>
    intro world content chunk output hleft hfuel houtput hchunk
    have hpositive : 0 < chunk.length := List.length_pos_iff.2 hchunk
    rw [readTextLoop, if_neg (not_lt.2 houtput)]
    simp only
    -- The request asks for one byte past the limit where the chunk has room for it.
    generalize hrequest : (if maximumBytes - output.length < chunk.length then
      maximumBytes - output.length + 1 else chunk.length) = request
    have hbounds : 0 < request ∧ request ≤ chunk.length ∧
        request ≤ maximumBytes - output.length + 1 := by
      rw [← hrequest]
      split <;> omega
    have hspan : chunk.take request ≠ [] := by
      apply List.length_pos_iff.1
      rw [List.length_take]
      omega
    rcases readSome_eq h hleft hspan with ⟨piece, rest, next, rfl, hpiece, hnext, hempty, hcall⟩
    rw [List.length_append] at hfuel
    rw [if_neg (not_lt.2 hbounds.2.1), hcall]
    simp only
    by_cases hend : piece = []
    · have hcontent : rest = [] := by simpa [hend] using hempty hend
      refine ⟨next, rest, hnext, ?_⟩
      rw [if_pos (List.length_eq_zero_iff.2 hend), hend, hcontent, List.append_nil, List.append_nil,
        if_pos houtput]
    · have hcount : 0 < piece.length := List.length_pos_iff.2 hend
      rw [if_neg hcount.ne']
      by_cases hlong : piece.length > maximumBytes - output.length
      · refine ⟨next, rest, hnext, ?_⟩
        rw [if_pos hlong, if_neg]
        rw [List.length_append, List.length_append]
        omega
      · have htake : (piece ++ (chunk.take request).drop piece.length ++ chunk.drop request).take
            piece.length = piece := by
          rw [List.append_assoc, List.take_left]
        rw [if_neg hlong, htake]
        rcases ih next rest (piece ++ (chunk.take request).drop piece.length ++ chunk.drop request)
          (output ++ piece) hnext (by omega) (by rw [List.length_append]; omega)
          (by simp [hend]) with ⟨last, left, hlast, hrun⟩
        refine ⟨last, left, hlast, ?_⟩
        rw [hrun, List.append_assoc]

/-- A file that is read without an error is returned exactly when it fits. -/
theorem readTextFile_eq {stdio : Stdio World} {Left : World → ByteString → Prop}
    (h : ReadsContent stdio Left) {path content : ByteString} {world : World}
    (hopen : (stdio.fopen path world).1 = true) (hleft : Left (stdio.fopen path world).2 content)
    (maximumBytes : Nat) {fuel : Nat} (hfuel : content.length < fuel) :
    ∃ last, readTextFile stdio fuel path maximumBytes world =
      some (some (if content.length ≤ maximumBytes then .ok content else .error textFileTooLong,
        last)) := by
  have hchunk : List.replicate chunkSize (0 : Byte) ≠ [] := by
    apply List.length_pos_iff.1
    rw [List.length_replicate]
    decide
  rcases readTextLoop_eq h fuel _ content (List.replicate chunkSize 0) [] hleft hfuel
    (Nat.zero_le maximumBytes) hchunk with ⟨next, rest, hnext, hrun⟩
  have hopened : File.openRead stdio path world =
      (.ok ⟨true, true, false⟩, (stdio.fopen path world).2) := by
    rw [File.openRead, if_pos hopen]
  have hcloses := h.closes next rest hnext
  refine ⟨(stdio.fclose next).2, ?_⟩
  rw [List.nil_append] at hrun
  rw [readTextFile, hopened]
  simp only [hrun, Option.bind_eq_bind, Option.bind_some, Option.map_some]
  by_cases hfits : content.length ≤ maximumBytes
  · simp [hfits, File.close, hcloses, Except.map]
  · simp [hfits, File.close, hcloses]

/-- `ReadExact` succeeds exactly when the source fills the destination piece by piece, `WriteAll`
exactly when the sink consumes the source piece by piece, both within one call for every byte; and
`ReadTextFile` returns the content of a file exactly when it fits. -/
theorem io_transfers_exactly :
    (∀ {State : Type} (source : ByteSource State) (state : State) (destination : ByteString),
      ∀ fuel ≥ destination.length, readExact source fuel state destination ≠ none ∧
        ∀ filled last, readExact source fuel state destination = some (.ok (), filled, last) ↔
          ∃ pieces, Delivers source state destination pieces last ∧ (∀ piece ∈ pieces, piece ≠ []) ∧
            pieces.flatten.length = destination.length ∧ filled = pieces.flatten) ∧
    (∀ {State : Type} (sink : ByteSink State) (state : State) (source : ByteString),
      ∀ fuel ≥ source.length, writeAll sink fuel state source ≠ none ∧
        ∀ last, writeAll sink fuel state source = some (.ok (), last) ↔
          ∃ pieces, Consumes sink state source pieces last ∧ (∀ piece ∈ pieces, piece ≠ []) ∧
            pieces.flatten = source) ∧
    ∀ {World : Type} (stdio : Stdio World) (Left : World → ByteString → Prop),
      ReadsContent stdio Left → ∀ (path content : ByteString) (world : World),
        (stdio.fopen path world).1 = true → Left (stdio.fopen path world).2 content →
          ∀ maximumBytes, ∀ fuel > content.length, ∃ last,
            readTextFile stdio fuel path maximumBytes world =
              some (some (if content.length ≤ maximumBytes then .ok content
                else .error textFileTooLong, last)) :=
  ⟨fun source state destination fuel hfuel =>
      readExactLoop_ok_iff source fuel state [] destination hfuel,
    fun sink state _ _ hfuel => writeAllLoop_ok_iff sink hfuel state,
    fun _ _ h _ _ _ hopen hleft maximumBytes _ hfuel =>
      readTextFile_eq h hopen hleft maximumBytes hfuel⟩

/-! ### A file that is read byte by byte -/

def byteStdio : Stdio ByteString where
  fopen _ world := (true, world)
  fread world size := (world.take (min size 1), world.drop (min size 1))
  fread_le world size := by
    rw [List.length_take]
    omega
  ferror _ := false
  fclose world := (true, world)
  errno _ := 0

theorem byteStdio_reads : ReadsContent byteStdio fun world content => world = content where
  read world content size hcontent hsize := by
    subst hcontent
    refine ⟨world.drop (min size 1), (List.take_append_drop _ _).symm, rfl, fun hempty => ?_⟩
    have hlength := congrArg List.length hempty
    simp only [byteStdio, List.length_take, List.length_nil] at hlength
    exact List.length_eq_zero_iff.1 (by omega)
  noError _ _ _ _ _ := rfl
  closes _ _ _ := rfl

theorem io_transfers_exactly_sample :
    ∃ last, readTextFile byteStdio 4 (text "name") 2 (text "abc") =
      some (some (.error textFileTooLong, last)) :=
  io_transfers_exactly.2.2 byteStdio _ byteStdio_reads (text "name") (text "abc") (text "abc") rfl
    rfl 2 4 (by decide)

end Core
end AscCpp
