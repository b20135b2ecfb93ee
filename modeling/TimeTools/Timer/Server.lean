import TimeTools.Foundation.Blocks
import TimeTools.Timer.Record

/-!
# Reading records off a stream

`process_conn_server` treats each return of `read` as one record.  It asks for 60
bytes, its buffer holds 50, and only a return of 0 ends its loop.  The stream is a
list of what `read` returns: any number of chunks, and then the same final
result for as long as the loop asks.

The lines it prints are those of the records received exactly when the stream
happens to arrive a record at a time and ends in order (`framed_iff`).
-/

namespace TimeTools.Timer

open FixedWidth Blocks

def readSize : Nat := 60

inductive ReadResult
  | data (bytes : List UInt8)
  | endOfStream
  | error
  deriving DecidableEq, Repr

structure Line where
  fields : Received
  count : Int32
  deriving DecidableEq, Repr

/-- `process_conn_server` at the head of its loop.  `overrun` records that a read
has stored past the end of `buffer`, after which the rest means nothing. -/
structure Conn where
  lines : List Line
  count : Int32
  overrun : Bool
  returned : Bool
  deriving DecidableEq, Repr

namespace Conn

def start : Conn := { lines := [], count := 0, overrun := false, returned := false }

def printLine (s : Conn) (buffer : List UInt8) : Conn :=
  { s with
    lines := s.lines ++ [{ fields := decodeRecord buffer, count := s.count + 1 }]
    count := s.count + 1 }

/-- One pass of the loop.  The size is compared with 0 only, so a failed read
prints the buffer that `bzero` has cleared. -/
def step (s : Conn) (r : ReadResult) : Conn :=
  if s.returned then s
  else
    let buffer := List.replicate bufferSize 0
    match r with
    | .endOfStream => { s with returned := true }
    | .error => s.printLine buffer
    | .data bytes =>
      { s with overrun := s.overrun || decide (bufferSize < bytes.length) }.printLine
        (storeAt buffer 0 bytes)

def printed (s : Conn) : List Received := s.lines.map Line.fields

end Conn

def processConnServer (reads : List ReadResult) : Conn := reads.foldl Conn.step Conn.start

/-! ## Streams -/

structure Message where
  hour : Int32
  min : Int32
  sec : Int32
  time : Timespec
  deriving DecidableEq, Repr

namespace Message

def record (m : Message) : List UInt8 := fillRecord m.hour m.min m.sec m.time

@[simp] theorem length_record (m : Message) : m.record.length = bufferSize :=
  length_fillRecord _ _ _ _

def fields (m : Message) : Received :=
  { hour := m.hour
    min := m.min
    sec := m.sec
    tsSec := m.time.tvSec
    tsNsec := m.time.tvNsec.toUInt64.toUInt32 }

end Message

/-- A stream of records as the server gets it: the chunks that `read` returns, and
what it returns from then on. -/
structure Delivery (sent : List Message) where
  chunks : List (List UInt8)
  closed : ReadResult
  chunk_pos : ∀ c ∈ chunks, 0 < c.length
  chunk_le : ∀ c ∈ chunks, c.length ≤ readSize
  from_sent : chunks.flatten <+: (sent.map Message.record).flatten
  closed_final : closed = .endOfStream ∨ closed = .error

namespace Delivery

variable {sent : List Message} (d : Delivery sent)

def reads (n : Nat) : List ReadResult :=
  d.chunks.map .data ++ List.replicate n d.closed

def after (n : Nat) : Conn := processConnServer (d.reads n)

/-- The records that have arrived whole. -/
def received : List Message := sent.take (d.chunks.flatten.length / bufferSize)

/-- What the server promises its users. -/
structure Framed : Prop where
  inBounds : ∀ n, (d.after n).overrun = false
  printed : ∀ n, (d.after n).printed = d.received.map Message.fields
  returns : ∃ n, (d.after n).returned = true

/-- Every read returns one record, the stream ends in order, and the seconds of
the records received fit an `int`. -/
structure RecordAtATime : Prop where
  full : Full bufferSize d.chunks
  closed : d.closed = .endOfStream
  seconds : ∀ m ∈ d.received, FitsInt32 m.time.tvSec.toInt

end Delivery

/-! ## The loop on data -/

def decodeChunk (bytes : List UInt8) : Received :=
  decodeRecord (storeAt (List.replicate bufferSize 0) 0 bytes)

namespace Conn

variable {s : Conn}

theorem step_data (h : s.returned = false) (bytes : List UInt8) :
    (s.step (.data bytes)).printed = s.printed ++ [decodeChunk bytes] ∧
      (s.step (.data bytes)).overrun = (s.overrun || decide (bufferSize < bytes.length)) ∧
      (s.step (.data bytes)).returned = false := by
  simp [step, h, printLine, printed, decodeChunk]

theorem step_of_returned (h : s.returned = true) (r : ReadResult) : s.step r = s := by
  rw [step, if_pos h]

theorem foldl_step_of_returned (h : s.returned = true) (rs : List ReadResult) :
    rs.foldl step s = s := by
  induction rs with
  | nil => rfl
  | cons r rs ih => rw [List.foldl_cons, step_of_returned h, ih]

/-- Each chunk is printed as a line, and only a chunk can overrun the buffer. -/
theorem foldl_step_data (h : s.returned = false) (cs : List (List UInt8)) :
    ((cs.map .data).foldl step s).printed = s.printed ++ cs.map decodeChunk ∧
      (((cs.map .data).foldl step s).overrun = true ↔
        s.overrun = true ∨ ∃ c ∈ cs, bufferSize < c.length) ∧
      ((cs.map .data).foldl step s).returned = false := by
  induction cs generalizing s with
  | nil => simp [h]
  | cons c cs ih =>
    obtain ⟨hprinted, hoverrun, hreturned⟩ := step_data h c
    obtain ⟨ihprinted, ihoverrun, ihreturned⟩ := ih hreturned
    rw [List.map_cons, List.foldl_cons]
    refine ⟨?_, ?_, ihreturned⟩
    · rw [ihprinted, hprinted, List.append_assoc, List.map_cons, List.singleton_append]
    · rw [ihoverrun, hoverrun]
      simp [or_assoc]

end Conn

theorem decodeChunk_of_full {c : List UInt8} (h : c.length = bufferSize) :
    decodeChunk c = decodeRecord c := by
  rw [decodeChunk, storeAt, List.drop_of_length_le (by simp [h]), List.take_zero, List.nil_append,
    List.append_nil]

theorem decodeRecord_record_eq_iff (m : Message) :
    decodeRecord m.record = m.fields ↔ FitsInt32 m.time.tvSec.toInt := by
  rw [Message.record, decodeRecord_fillRecord, Message.fields]
  simp [toInt64_toInt32_eq_iff]

/-! ## The whole stream -/

namespace Delivery

variable {sent : List Message} (d : Delivery sent)

theorem after_zero :
    (d.after 0).printed = d.chunks.map decodeChunk ∧
      ((d.after 0).overrun = true ↔ ∃ c ∈ d.chunks, bufferSize < c.length) ∧
      (d.after 0).returned = false := by
  have h := Conn.foldl_step_data (s := Conn.start) rfl d.chunks
  simpa [after, processConnServer, reads, Conn.start, Conn.printed] using h

theorem after_succ (n : Nat) :
    d.after (n + 1) = (List.replicate n d.closed).foldl Conn.step ((d.after 0).step d.closed) := by
  simp [after, processConnServer, reads, List.replicate_succ, List.foldl_append]

theorem after_succ_of_endOfStream (h : d.closed = .endOfStream) (n : Nat) :
    d.after (n + 1) = { d.after 0 with returned := true } := by
  have hstep : (d.after 0).step d.closed = { d.after 0 with returned := true } := by
    simp [Conn.step, d.after_zero.2.2, h]
  rw [after_succ, hstep, Conn.foldl_step_of_returned rfl]

theorem length_printed_after_one (h : d.closed = .error) :
    (d.after 1).printed.length = (d.after 0).printed.length + 1 := by
  rw [after_succ, h]
  simp [Conn.step, d.after_zero.2.2, Conn.printLine, Conn.printed]

theorem full_sent : Full bufferSize (sent.map Message.record) :=
  full_map Message.length_record sent

theorem length_received : d.received.length = d.chunks.flatten.length / bufferSize := by
  have hle := d.from_sent.length_le
  rw [length_flatten full_sent, List.length_map] at hle
  rw [received, List.length_take, Nat.min_eq_left]
  exact Nat.div_le_of_le_mul (by rwa [Nat.mul_comm])

theorem chunks_eq (h : Full bufferSize d.chunks) :
    d.chunks = d.received.map Message.record := by
  have hprefix := prefix_of_flatten_prefix (by decide) h full_sent d.from_sent
  have hlen : d.chunks.flatten.length / bufferSize = d.chunks.length := by
    rw [length_flatten h]
    exact Nat.mul_div_cancel _ (by decide)
  rw [received, hlen, List.map_take]
  exact List.prefix_iff_eq_take.mp hprefix

theorem map_decodeChunk_eq_iff (h : Full bufferSize d.chunks) :
    d.chunks.map decodeChunk = d.received.map Message.fields ↔
      ∀ m ∈ d.received, FitsInt32 m.time.tvSec.toInt := by
  have hchunks := d.chunks_eq h
  rw [hchunks, List.map_map, List.map_inj_left]
  refine forall₂_congr fun m _ => ?_
  rw [Function.comp_apply, decodeChunk_of_full m.length_record,
    decodeRecord_record_eq_iff]

theorem full_of_framed (h : d.Framed) : Full bufferSize d.chunks := by
  obtain ⟨hprinted, hoverrun, -⟩ := d.after_zero
  have hle : ∀ c ∈ d.chunks, c.length ≤ bufferSize := by
    intro c hc
    by_contra hlong
    have hover := hoverrun.mpr ⟨c, hc, by omega⟩
    rw [h.inBounds 0] at hover
    cases hover
  have hcount : d.chunks.length = d.chunks.flatten.length / bufferSize := by
    have hlen := congrArg List.length (h.printed 0)
    rwa [hprinted, List.length_map, List.length_map, length_received] at hlen
  apply full_of_length_le hle
  rw [hcount]
  exact Nat.div_mul_le_self _ _

theorem closed_of_framed (h : d.Framed) : d.closed = .endOfStream := by
  refine d.closed_final.resolve_right fun herror => ?_
  have hmore := d.length_printed_after_one herror
  rw [h.printed 0, h.printed 1] at hmore
  omega

/-- The server keeps its promise on a stream exactly when the stream arrives a
record at a time, with seconds that fit, and ends in order. -/
theorem framed_iff : d.Framed ↔ d.RecordAtATime := by
  obtain ⟨hprinted, hoverrun, -⟩ := d.after_zero
  constructor
  · intro h
    have hfull := d.full_of_framed h
    refine ⟨hfull, d.closed_of_framed h, (d.map_decodeChunk_eq_iff hfull).mp ?_⟩
    rw [← hprinted, h.printed 0]
  · intro h
    obtain ⟨hfull, hclosed, hseconds⟩ := h
    have hlines := (d.map_decodeChunk_eq_iff hfull).mpr hseconds
    have hinBounds : (d.after 0).overrun = false := by
      rw [Bool.eq_false_iff, ne_eq, hoverrun]
      intro hover
      obtain ⟨c, hc, hlong⟩ := hover
      rw [hfull c hc] at hlong
      omega
    have hafter := d.after_succ_of_endOfStream hclosed
    refine ⟨fun n => ?_, fun n => ?_, 1, by rw [hafter]⟩
    · cases n with
      | zero => exact hinBounds
      | succ n => rw [hafter]; exact hinBounds
    · cases n with
      | zero => rw [hprinted, hlines]
      | succ n => rw [hafter]; exact hprinted.trans hlines

def sample : Message := { hour := 8, min := 30, sec := 0, time := ⟨1700000000, 5⟩ }

def later : Message := { hour := 8, min := 30, sec := 5, time := ⟨1700000005, 800⟩ }

def whole : Delivery [sample, later] where
  chunks := [sample.record, later.record]
  closed := .endOfStream
  chunk_pos := by decide
  chunk_le := by decide
  from_sent := by decide
  closed_final := .inl rfl

def coalesced : Delivery [sample, sample] where
  chunks := [(sample.record ++ sample.record).take 60, (sample.record ++ sample.record).drop 60]
  closed := .endOfStream
  chunk_pos := by decide
  chunk_le := by decide
  from_sent := by decide
  closed_final := .inl rfl

def split : Delivery [sample] where
  chunks := [sample.record.take 20, sample.record.drop 20]
  closed := .endOfStream
  chunk_pos := by decide
  chunk_le := by decide
  from_sent := by decide
  closed_final := .inl rfl

def reset : Delivery [] where
  chunks := []
  closed := .error
  chunk_pos := by decide
  chunk_le := by decide
  from_sent := by decide
  closed_final := .inr rfl

theorem framed_whole : whole.Framed := whole.framed_iff.mpr
  { full := by unfold Full; decide
    closed := rfl
    seconds := by decide }

theorem not_framed :
    ¬ coalesced.Framed ∧ ¬ split.Framed ∧ ¬ reset.Framed := by
  refine ⟨fun h => ?_, fun h => ?_, fun h => ?_⟩
  · have hover : (coalesced.after 0).overrun = true :=
      coalesced.after_zero.2.1.mpr ⟨_, List.mem_cons_self, by decide⟩
    rw [h.inBounds 0] at hover
    cases hover
  · have hlen := congrArg List.length (h.printed 0)
    rw [split.after_zero.1, List.length_map, List.length_map] at hlen
    exact absurd hlen (by decide)
  · have hmore := reset.length_printed_after_one rfl
    rw [h.printed 1, h.printed 0] at hmore
    omega

end Delivery

end TimeTools.Timer
