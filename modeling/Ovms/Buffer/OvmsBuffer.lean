import Ovms.Lib.Machine
import Ovms.Lib.Ring

/-!
# The Byte Buffer

`OvmsBuffer` (`components/ovms_buffer/src/ovms_buffer.cpp`) keeps bytes in an array of
fixed size, with the index to store at, the index to fetch from, and the number of bytes
held. All three move on their own, one byte at a time. It is a bounded queue of bytes.

Sizes and indices are naturals here. An index is stored in an `int` and the number of
bytes in a `size_t`; neither exceeds the size of an array that could be allocated.
-/

open Lib

namespace Ovms.Buffer

/-! ### The operations -/

/-- The members of `OvmsBuffer`. -/
structure OvmsBuffer where
  buffer : List UInt8
  head : ℕ
  tail : ℕ
  size : ℕ
  used : ℕ
  deriving DecidableEq, Repr

namespace OvmsBuffer

/-- `OvmsBuffer::OvmsBuffer`. What is in a new array is of no account. -/
def new (size : ℕ) : OvmsBuffer := ⟨List.replicate size 0, 0, 0, size, 0⟩

/-- `FreeSpace`. -/
def freeSpace (b : OvmsBuffer) : ℕ := b.size - b.used

/-- `EmptyAll`. -/
def emptyAll (b : OvmsBuffer) : OvmsBuffer := { b with head := 0, tail := 0, used := 0 }

/-- Store a byte at the head, and move the head. -/
def store (b : OvmsBuffer) (byte : UInt8) : OvmsBuffer :=
  { b with buffer := b.buffer.set b.head byte, head := wrap b.size (b.head + 1) }

/-- `Push`, of a byte. -/
def push (b : OvmsBuffer) (byte : UInt8) : OvmsBuffer × Bool :=
  if b.used = b.size then (b, false) else (store { b with used := b.used + 1 } byte, true)

/-- `Push`, of a block. -/
def pushBlock (b : OvmsBuffer) (bytes : List UInt8) : OvmsBuffer × Bool :=
  if b.size - b.used < bytes.length then (b, false)
  else (bytes.foldl store { b with used := b.used + bytes.length }, true)

/-- Fetch the byte at the tail, and move the tail. -/
def fetch (b : OvmsBuffer) : OvmsBuffer × UInt8 :=
  ({ b with used := b.used - 1, tail := wrap b.size (b.tail + 1) }, b.buffer.getD b.tail 0)

/-- `Pop`, of a byte. -/
def pop (b : OvmsBuffer) : OvmsBuffer × UInt8 := if b.used = 0 then (b, 0) else fetch b

/-- `Pop`, of up to `count` bytes. -/
def popBlock : ℕ → OvmsBuffer → OvmsBuffer × List UInt8
  | 0, b => (b, [])
  | count + 1, b =>
      if b.used = 0 then (b, [])
      else
        let rest := popBlock count (fetch b).1
        (rest.1, (fetch b).2 :: rest.2)

/-- `Peek`, of a byte. -/
def peek (b : OvmsBuffer) : UInt8 := if b.used = 0 then 0 else b.buffer.getD b.tail 0

/-- The loop of `Peek`, of up to `count` bytes more. -/
def peekLoop (b : OvmsBuffer) : (count tail done : ℕ) → List UInt8
  | 0, _, _ => []
  | count + 1, tail, done =>
      if done < b.used then
        b.buffer.getD tail 0 :: peekLoop b count (wrap b.size (tail + 1)) (done + 1)
      else []

/-- `Peek`, of up to `count` bytes. -/
def peekBlock (b : OvmsBuffer) (count : ℕ) : List UInt8 := peekLoop b count b.tail 0

end OvmsBuffer

/-- The bytes a line ends at. -/
def isLineEnd (byte : UInt8) : Bool := byte == 13 || byte == 10

namespace OvmsBuffer

/-- The loop of `HasLine`, over the last `n` bytes. -/
def hasLineLoop (b : OvmsBuffer) : (n tail done : ℕ) → Option ℕ
  | 0, _, _ => none
  | n + 1, tail, done =>
      if isLineEnd (b.buffer.getD tail 0) then some done
      else hasLineLoop b n (wrap b.size (tail + 1)) (done + 1)

/-- `HasLine`: the length of the line, if there is one. The code answers -1 if not. -/
def hasLine (b : OvmsBuffer) : Option ℕ :=
  if b.used = 0 then none else hasLineLoop b b.used b.tail 0

/-- Pop the next byte if it is the one given. -/
def popIf (b : OvmsBuffer) (byte : UInt8) : OvmsBuffer := if b.peek = byte then b.pop.1 else b

/-- `ReadLine`. -/
def readLine (b : OvmsBuffer) : OvmsBuffer × List UInt8 :=
  match b.hasLine with
  | none => (b, [])
  | some hl =>
      let line := popBlock hl b
      ((line.1.popIf 13).popIf 10, line.2)

/-- `ReadAll`. -/
def readAll (b : OvmsBuffer) : OvmsBuffer × List UInt8 := popBlock b.used b

end OvmsBuffer

/-- The calls of a buffer. -/
inductive Op
  | push (byte : UInt8)
  | pushBlock (bytes : List UInt8)
  | pop
  | popBlock (count : ℕ)
  | peek
  | peekBlock (count : ℕ)
  | hasLine
  | readLine
  | readAll
  | emptyAll
  deriving DecidableEq, Repr

/-- What a call returns. -/
inductive Answer
  | accepted (ok : Bool)
  | byte (byte : UInt8)
  | bytes (bytes : List UInt8)
  | line (length : Option ℕ)
  | done
  deriving DecidableEq, Repr

/-- One call of a buffer. -/
def step (b : OvmsBuffer) : Op → OvmsBuffer × Answer
  | .push byte => ((b.push byte).1, .accepted (b.push byte).2)
  | .pushBlock bytes => ((b.pushBlock bytes).1, .accepted (b.pushBlock bytes).2)
  | .pop => (b.pop.1, .byte b.pop.2)
  | .popBlock count => ((b.popBlock count).1, .bytes (b.popBlock count).2)
  | .peek => (b, .byte b.peek)
  | .peekBlock count => (b, .bytes (b.peekBlock count))
  | .hasLine => (b, .line b.hasLine)
  | .readLine => (b.readLine.1, .bytes b.readLine.2)
  | .readAll => (b.readAll.1, .bytes b.readAll.2)
  | .emptyAll => (b.emptyAll, .done)

/-! ### What they mean for a queue -/

variable {capacity : ℕ}

/-- How many bytes, one or none, the given byte takes at the front. -/
def leading (byte : UInt8) : List UInt8 → ℕ
  | [] => 0
  | x :: _ => if x = byte then 1 else 0

/-- The bytes that end a line: a carriage return, a line feed, or the two in this order. -/
def terminator (items : List UInt8) : ℕ :=
  leading 13 items + leading 10 (items.drop (leading 13 items))

/-- The length of the first line. -/
def lineLength (items : List UInt8) : Option ℕ := items.findIdx? isLineEnd

/-- The bytes that reading a line takes out. -/
def lineExtent (items : List UInt8) : ℕ :=
  match lineLength items with
  | none => 0
  | some hl => hl + terminator (items.drop hl)

/-- The bytes a call puts in. -/
def received (q : Fifo UInt8 capacity) : Op → List UInt8
  | .push byte => if q.free = 0 then [] else [byte]
  | .pushBlock bytes => if q.free < bytes.length then [] else bytes
  | .pop | .popBlock _ | .peek | .peekBlock _ | .hasLine | .readLine | .readAll | .emptyAll => []

/-- How many bytes a call takes out. -/
def taken (q : Fifo UInt8 capacity) : Op → ℕ
  | .pop => 1
  | .popBlock count => count
  | .readLine => lineExtent q.items
  | .readAll => q.items.length
  | .emptyAll => q.items.length
  | .push _ | .pushBlock _ | .peek | .peekBlock _ | .hasLine => 0

/-- The bytes a call takes out. -/
def sent (q : Fifo UInt8 capacity) (op : Op) : List UInt8 := q.items.take (taken q op)

/-- What a call tells of the queue. -/
def fifoAnswer (q : Fifo UInt8 capacity) : Op → Answer
  | .push _ => .accepted (q.free != 0)
  | .pushBlock bytes => .accepted (Nat.ble bytes.length q.free)
  | .pop => .byte (q.items.headD 0)
  | .popBlock count => .bytes (q.items.take count)
  | .peek => .byte (q.items.headD 0)
  | .peekBlock count => .bytes (q.items.take count)
  | .hasLine => .line (lineLength q.items)
  | .readLine => .bytes (q.items.take ((lineLength q.items).getD 0))
  | .readAll => .bytes q.items
  | .emptyAll => .done

/-- One call, of a queue. -/
def fifoStep (q : Fifo UInt8 capacity) (op : Op) : Fifo UInt8 capacity × Answer :=
  ((q.push (received q op)).drop (taken q op), fifoAnswer q op)

/-! ### The buffer represents a queue -/

/-- The buffer holds the elements of the queue: they are the window from the tail on, and
the head is where the window ends. -/
structure Represents (b : OvmsBuffer) (q : Fifo UInt8 capacity) : Prop where
  cells : b.buffer.length = b.size
  size : b.size = capacity
  used : b.used = q.items.length
  tail : 0 < b.size → b.tail < b.size
  head : b.head = slot b.size b.tail b.used
  contents : window b.buffer b.tail b.used = q.items

/-- The new buffer is the empty queue. -/
theorem represents_new (capacity : ℕ) :
    Represents (.new capacity) (.empty : Fifo UInt8 capacity) where
  cells := List.length_replicate
  size := rfl
  used := rfl
  tail h := h
  head := rfl
  contents := rfl

/-- So is the buffer after it was emptied. -/
theorem represents_emptyAll {b : OvmsBuffer} {q : Fifo UInt8 capacity} (h : Represents b q) :
    Represents b.emptyAll (q.drop q.items.length) where
  cells := h.cells
  size := h.size
  used := by rw [Fifo.items_drop, List.drop_length]; rfl
  tail h := h
  head := rfl
  contents := by rw [Fifo.items_drop, List.drop_length]; rfl

namespace Represents

variable {b : OvmsBuffer} {q : Fifo UInt8 capacity}

theorem used_le (h : Represents b q) : b.used ≤ b.size := by
  have hused := h.used
  have hsize := h.size
  have hbound := q.bound
  omega

theorem freeSpace_eq (h : Represents b q) : b.freeSpace = q.free := by
  rw [OvmsBuffer.freeSpace, Fifo.free, h.size, h.used]

/-- One byte stored is one byte pushed. -/
theorem store (h : Represents b q) (hfree : 0 < q.free) (byte : UInt8) :
    Represents (OvmsBuffer.store { b with used := b.used + 1 } byte) (q.push [byte]) := by
  have hitems : (q.push [byte]).items = q.items ++ [byte] := Fifo.items_push hfree
  have hused : b.used < b.size := by
    rw [← h.freeSpace_eq, OvmsBuffer.freeSpace] at hfree
    omega
  have htail : b.tail < b.size := h.tail (Nat.zero_lt_of_lt hused)
  refine ⟨?_, ?_, ?_, h.tail, ?_, ?_⟩
  · exact List.length_set.trans h.cells
  · exact h.size
  · rw [hitems, List.length_append, ← h.used]
    rfl
  · change wrap b.size (b.head + 1) = slot b.size b.tail (b.used + 1)
    rw [h.head, wrap_slot]
  · change window (b.buffer.set b.head byte) b.tail (b.used + 1) = _
    rw [h.head, ← h.cells, window_set_slot byte (h.cells ▸ htail) (h.cells ▸ hused), h.contents,
      hitems]

/-- The loop of a block push, which counts all bytes before it stores the first. -/
theorem stores : ∀ {bytes : List UInt8} {b : OvmsBuffer} {q : Fifo UInt8 capacity},
    Represents b q → bytes.length ≤ q.free →
      Represents (bytes.foldl OvmsBuffer.store { b with used := b.used + bytes.length })
        (q.push bytes) := by
  intro bytes
  induction bytes with
  | nil =>
      intro b q h _
      rwa [Fifo.push_nil]
  | cons byte bytes ih =>
      intro b q h hfit
      rw [List.length_cons] at hfit
      have hfirst := h.store (show 0 < q.free by omega) byte
      have hitems : (q.push [byte]).items = q.items ++ [byte] :=
        Fifo.items_push (show [byte].length ≤ q.free from Nat.le_trans (by simp) hfit)
      have hrest : bytes.length ≤ (q.push [byte]).free := by
        rw [Fifo.free, hitems, List.length_append]
        rw [Fifo.free] at hfit
        simp only [List.length_singleton]
        omega
      have hpush : (q.push [byte]).push bytes = q.push (byte :: bytes) := by
        have hall : (byte :: bytes).length ≤ q.free := hfit
        refine Fifo.ext ?_
        rw [Fifo.items_push hrest, hitems, Fifo.items_push hall, List.append_assoc]
        rfl
      have hloop := ih hfirst hrest
      rw [hpush] at hloop
      rw [List.foldl_cons, List.length_cons, Nat.add_comm bytes.length, ← Nat.add_assoc]
      exact hloop

/-- One byte fetched is the oldest byte, taken out. -/
theorem fetch (h : Represents b q) (hused : 0 < b.used) :
    b.fetch.2 = q.items.headD 0 ∧ Represents b.fetch.1 (q.drop 1) := by
  obtain ⟨n, hn⟩ : ∃ n, b.used = n + 1 := ⟨b.used - 1, by omega⟩
  have hcontents : q.items = b.buffer.getD b.tail default ::
      window b.buffer (wrap b.size (b.tail + 1)) n := by
    rw [← h.contents, hn, window, h.cells]
  have hsize : 0 < b.size := by
    have := h.used_le
    omega
  have hfetch : b.fetch.1.used = n := by
    change b.used - 1 = n
    omega
  refine ⟨?_, h.cells, h.size, ?_, fun _ => wrap_lt hsize, ?_, ?_⟩
  · rw [hcontents]
    rfl
  · rw [hfetch, Fifo.items_drop, List.length_drop, ← h.used]
    omega
  · rw [hfetch]
    change b.head = slot b.size (wrap b.size (b.tail + 1)) n
    rw [h.head, hn, slot]
  · rw [hfetch, Fifo.items_drop, hcontents]
    rfl

theorem items_eq_nil (h : Represents b q) (hused : b.used = 0) : q.items = [] :=
  List.eq_nil_of_length_eq_zero (h.used.symm.trans hused)

/-- A byte popped is the oldest byte, or zero. -/
theorem pop (h : Represents b q) :
    b.pop.2 = q.items.headD 0 ∧ Represents b.pop.1 (q.drop 1) := by
  rw [OvmsBuffer.pop]
  split
  · rename_i hused
    have hnil := h.items_eq_nil hused
    have hdrop : q.drop 1 = q := Fifo.ext (by rw [Fifo.items_drop, hnil]; rfl)
    rw [hnil, hdrop]
    exact ⟨rfl, h⟩
  · rename_i hused
    exact h.fetch (Nat.pos_of_ne_zero hused)

/-- A block popped is the oldest bytes, as many as there are. -/
theorem popBlock : ∀ (count : ℕ) {b : OvmsBuffer} {q : Fifo UInt8 capacity},
    Represents b q → (b.popBlock count).2 = q.items.take count ∧
      Represents (b.popBlock count).1 (q.drop count) := by
  intro count
  induction count with
  | zero =>
      intro b q h
      exact ⟨rfl, h⟩
  | succ count ih =>
      intro b q h
      rw [OvmsBuffer.popBlock]
      split
      · rename_i hused
        have hnil := h.items_eq_nil hused
        have hdrop : q.drop (count + 1) = q := Fifo.ext (by rw [Fifo.items_drop, hnil]; rfl)
        rw [hnil, hdrop]
        exact ⟨rfl, h⟩
      · rename_i hused
        obtain ⟨hbyte, hnext⟩ := h.fetch (Nat.pos_of_ne_zero hused)
        obtain ⟨hbytes, hend⟩ := ih hnext
        rw [Fifo.drop_drop, Nat.add_comm] at hend
        refine ⟨?_, hend⟩
        change b.fetch.2 :: (b.fetch.1.popBlock count).2 = _
        rw [hbyte, hbytes, Fifo.items_drop]
        have hne : q.items ≠ [] := fun hnil => hused (h.used.trans (by rw [hnil]; rfl))
        obtain ⟨x, xs, hitems⟩ := List.exists_cons_of_ne_nil hne
        rw [hitems]
        rfl

theorem peek (h : Represents b q) : b.peek = q.items.headD 0 := by
  rw [OvmsBuffer.peek, ← h.contents]
  cases hused : b.used with
  | zero => rfl
  | succ n => rfl

/-- The bytes looked at are a window. -/
theorem peekLoop_eq (h : Represents b q) : ∀ {count tail done : ℕ},
    b.peekLoop count tail done = window b.buffer tail (min count (b.used - done)) := by
  intro count
  induction count with
  | zero =>
      intro tail done
      rw [Nat.zero_min]
      rfl
  | succ count ih =>
      intro tail done
      rw [OvmsBuffer.peekLoop]
      split
      · obtain ⟨n, hn⟩ : ∃ n, b.used - done = n + 1 := ⟨b.used - done - 1, by omega⟩
        rw [ih, hn, Nat.succ_min_succ, window, h.cells, show b.used - (done + 1) = n by omega]
        rfl
      · rw [show b.used - done = 0 by omega, Nat.min_zero]
        rfl

theorem peekBlock (h : Represents b q) (count : ℕ) : b.peekBlock count = q.items.take count := by
  rw [OvmsBuffer.peekBlock, h.peekLoop_eq, Nat.sub_zero, ← h.contents]
  rcases Nat.le_total count b.used with hle | hle
  · rw [Nat.min_eq_left hle, take_window _ hle]
  · rw [Nat.min_eq_right hle, List.take_of_length_le]
    rwa [length_window]

/-- The loop of `HasLine` searches a window. -/
theorem hasLineLoop_eq (h : Represents b q) : ∀ {n tail done : ℕ},
    b.hasLineLoop n tail done =
      ((window b.buffer tail n).findIdx? isLineEnd).map (· + done) := by
  intro n
  induction n with
  | zero =>
      intro tail done
      rfl
  | succ n ih =>
      intro tail done
      rw [OvmsBuffer.hasLineLoop, window, List.findIdx?_cons, ih, h.cells,
        show b.buffer.getD tail default = b.buffer.getD tail 0 from rfl]
      split
      · rw [Option.map_some, Nat.zero_add]
      · rw [Option.map_map]
        congr 1
        funext k
        exact (Nat.succ_add_eq_add_succ k done).symm

theorem hasLine (h : Represents b q) : b.hasLine = lineLength q.items := by
  rw [OvmsBuffer.hasLine, h.hasLineLoop_eq, h.contents, lineLength]
  split
  · rename_i hused
    rw [h.items_eq_nil hused]
    rfl
  · cases q.items.findIdx? isLineEnd <;> rfl

/-- A byte popped when it is the one given. -/
theorem popIf (h : Represents b q) (byte : UInt8) (hbyte : byte ≠ 0) :
    Represents (b.popIf byte) (q.drop (leading byte q.items)) := by
  rw [OvmsBuffer.popIf, h.peek]
  cases hitems : q.items with
  | nil =>
      rw [List.headD_nil, if_neg hbyte.symm]
      exact h
  | cons x xs =>
      rw [List.headD_cons, leading]
      split
      · exact h.pop.2
      · exact h

end Represents

/-- Reading a line takes out the line and its end. -/
theorem Represents.readLine {b : OvmsBuffer} {q : Fifo UInt8 capacity} (h : Represents b q) :
    b.readLine.2 = q.items.take ((lineLength q.items).getD 0) ∧
      Represents b.readLine.1 (q.drop (lineExtent q.items)) := by
  rw [OvmsBuffer.readLine, h.hasLine, lineExtent]
  cases lineLength q.items with
  | none => exact ⟨rfl, h⟩
  | some hl =>
      obtain ⟨hline, hrest⟩ := h.popBlock hl
      refine ⟨hline, ?_⟩
      have hend := (hrest.popIf 13 (by decide)).popIf 10 (by decide)
      rw [Fifo.drop_drop, Fifo.drop_drop] at hend
      change Represents _ (q.drop (hl + terminator (q.items.drop hl)))
      rw [terminator]
      exact hend

/-- **Each operation answers what it means for the queue, and does it.** -/
theorem step_represents (b : OvmsBuffer) (q : Fifo UInt8 capacity) (op : Op) (h : Represents b q) :
    (step b op).2 = (fifoStep q op).2 ∧ Represents (step b op).1 (fifoStep q op).1 := by
  cases op with
  | push byte =>
      have hfull : b.used = b.size ↔ q.free = 0 := by
        have := h.used_le
        rw [← h.freeSpace_eq, OvmsBuffer.freeSpace]
        omega
      rw [step, fifoStep, received, fifoAnswer, taken, Fifo.drop_zero, OvmsBuffer.push]
      by_cases hfree : q.free = 0
      · rw [if_pos (hfull.mpr hfree), if_pos hfree, Fifo.push_nil, hfree]
        exact ⟨rfl, h⟩
      · rw [if_neg (mt hfull.mp hfree), if_neg hfree]
        refine ⟨?_, h.store (Nat.pos_of_ne_zero hfree) byte⟩
        rw [bne_iff_ne.mpr hfree]
  | pushBlock bytes =>
      rw [step, fifoStep, received, fifoAnswer, taken, Fifo.drop_zero, OvmsBuffer.pushBlock,
        show b.size - b.used = q.free from h.freeSpace_eq]
      split
      · rename_i hlt
        have hble : Nat.ble bytes.length q.free = false :=
          Bool.eq_false_iff.mpr fun hle => Nat.not_le_of_lt hlt (Nat.le_of_ble_eq_true hle)
        rw [Fifo.push_nil, hble]
        exact ⟨rfl, h⟩
      · rename_i hle
        refine ⟨?_, h.stores (Nat.le_of_not_lt hle)⟩
        rw [Nat.ble_eq_true_of_le (Nat.le_of_not_lt hle)]
  | pop =>
      obtain ⟨hbyte, hnext⟩ := h.pop
      exact ⟨congrArg Answer.byte hbyte, by rwa [fifoStep, received, Fifo.push_nil]⟩
  | popBlock count =>
      obtain ⟨hbytes, hnext⟩ := h.popBlock count
      exact ⟨congrArg Answer.bytes hbytes, by rwa [fifoStep, received, Fifo.push_nil]⟩
  | peek => exact ⟨congrArg Answer.byte h.peek, by rwa [fifoStep, received, Fifo.push_nil]⟩
  | peekBlock count =>
      exact ⟨congrArg Answer.bytes (h.peekBlock count), by rwa [fifoStep, received, Fifo.push_nil]⟩
  | hasLine => exact ⟨congrArg Answer.line h.hasLine, by rwa [fifoStep, received, Fifo.push_nil]⟩
  | readLine =>
      obtain ⟨hline, hnext⟩ := h.readLine
      exact ⟨congrArg Answer.bytes hline, by rwa [fifoStep, received, Fifo.push_nil]⟩
  | readAll =>
      obtain ⟨hbytes, hnext⟩ := h.popBlock b.used
      rw [h.used, List.take_length] at hbytes
      rw [h.used] at hnext
      refine ⟨congrArg Answer.bytes ?_, ?_⟩
      · rw [OvmsBuffer.readAll, h.used, hbytes]
      · rw [fifoStep, received, Fifo.push_nil]
        change Represents (b.popBlock b.used).1 _
        rwa [h.used]
  | emptyAll => exact ⟨rfl, by rw [fifoStep, received, Fifo.push_nil]; exact represents_emptyAll h⟩

/-! ### Runs -/

/-- What a call puts in fits. -/
theorem length_received_le (q : Fifo UInt8 capacity) (op : Op) :
    (received q op).length ≤ q.free := by
  cases op with
  | push byte =>
      rw [received]
      split
      · exact Nat.zero_le _
      · rename_i hfree
        exact Nat.pos_of_ne_zero hfree
  | pushBlock bytes =>
      rw [received]
      split
      · exact Nat.zero_le _
      · rename_i hle
        exact Nat.le_of_not_lt hle
  | _ => exact Nat.zero_le _

theorem received_eq_nil_or (q : Fifo UInt8 capacity) (op : Op) :
    received q op = [] ∨ taken q op = 0 := by
  cases op with
  | push _ | pushBlock _ => exact .inr rfl
  | _ => exact .inl rfl

theorem fifoStep_moves (q : Fifo UInt8 capacity) (op : Op) :
    Fifo.Moves q (fifoStep q op).1 (received q op) (sent q op) := by
  rcases received_eq_nil_or q op with hnil | hzero
  · rw [fifoStep, sent, hnil, Fifo.push_nil]
    exact Fifo.moves_drop q (taken q op)
  · rw [fifoStep, sent, hzero, Fifo.drop_zero]
    exact Fifo.moves_push (length_received_le q op)

/-- The bytes that `f` says of each call of a run. -/
def log (f : Fifo UInt8 capacity → Op → List UInt8) :
    Fifo UInt8 capacity → List Op → List UInt8
  | _, [] => []
  | q, op :: ops => f q op ++ log f (fifoStep q op).1 ops

theorem run_moves (ops : List Op) : ∀ q : Fifo UInt8 capacity,
    Fifo.Moves q (runOut fifoStep q ops).1 (log received q ops) (log sent q ops) := by
  induction ops with
  | nil => exact Fifo.Moves.refl
  | cons op ops ih => exact fun q => (fifoStep_moves q op).trans (ih _)

/-- **The buffer is a bounded queue**: for every capacity and every run of calls from the
empty buffer, it answers what the queue does. What went in has come out in this order, and
then is still there; a look at the bytes leaves the buffer as it was, and so does a block
that does not fit. -/
theorem ovmsBuffer_refines_fifo (capacity : ℕ) (ops : List Op) :
    let q₀ : Fifo UInt8 capacity := .empty
    let b := (runOut step (.new capacity) ops).1
    let q := (runOut fifoStep q₀ ops).1
    (runOut step (.new capacity) ops).2 = (runOut fifoStep q₀ ops).2 ∧
      Represents b q ∧
      b.used = q.items.length ∧ b.used ≤ capacity ∧
      log received q₀ ops = log sent q₀ ops ++ q.items ∧
      ((step b .peek).1 = b ∧ ∀ count, (step b (.peekBlock count)).1 = b) ∧
      ∀ bytes : List UInt8, capacity - b.used < bytes.length →
        step b (.pushBlock bytes) = (b, .accepted false) := by
  intro q₀ b q
  obtain ⟨hanswers, hrep⟩ := runOut_simulation step_represents (represents_new capacity) ops
  have hmoves := run_moves ops q₀
  have hused : b.used ≤ capacity :=
    calc b.used = q.items.length := hrep.used
      _ ≤ capacity := q.bound
  refine ⟨hanswers, hrep, hrep.used, hused, hmoves, ⟨rfl, fun _ => rfl⟩, fun bytes hlt => ?_⟩
  have hpush : b.pushBlock bytes = (b, false) := if_pos (hrep.size.symm ▸ hlt)
  rw [step, hpush]

end Ovms.Buffer
