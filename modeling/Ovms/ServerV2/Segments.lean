import Ovms.Buffer.Lines

/-!
# Receiving from a Server V2

`OvmsServerV2::IncomingData` and the receive event of its connection
(`components/ovms_server_v2/src/ovms_server_v2.cpp`). What the network brings is appended to the
receive buffer of the connection, all of that is offered to the line buffer, and it stays where it
is if there is no room for all of it. Behind a block that is taken, lines are processed as long as
there are any and the connection is up.

What processing a line does is left open, but for the connection: whether it is up depends on the
lines processed so far. Nothing is received any more when it is down.

A block is taken as a whole or not at all, and what is not taken is offered again with more behind
it. So once an offer does not fit, no later one does, and nothing is processed any more, although
every line would fit.
-/

open Lib

namespace Ovms.ServerV2

open Buffer

/-! ### The code -/

/-- The size of the line buffer. -/
def bufferSize : ℕ := 1024

/-- The line buffer, the bytes that the connection holds (`recv_mbuf`), and the lines that were
processed. -/
structure Receiver where
  buffer : OvmsBuffer
  mbuf : List UInt8
  processed : List (List UInt8)

/-- A connection that has received nothing. -/
def Receiver.new (size : ℕ) : Receiver := ⟨.new size, [], []⟩

variable (up : List (List UInt8) → Bool)

/-- The loop of `IncomingData`. A line that takes the connection down empties the buffer. There are
no more lines than bytes. -/
def serve : ℕ → OvmsBuffer → List (List UInt8) → OvmsBuffer × List (List UInt8)
  | 0, b, done => (b, done)
  | n + 1, b, done =>
      if b.hasLine.isSome ∧ up done = true then
        let read := b.readLine
        let done := done ++ [read.2]
        serve n (if up done then read.1 else read.1.emptyAll) done
      else (b, done)

/-- `IncomingData`, with how many bytes were taken. -/
def incomingData (r : Receiver) (data : List UInt8) : Receiver × ℕ :=
  let pushed := r.buffer.pushBlock data
  if pushed.2 then
    let served := serve up pushed.1.used pushed.1 r.processed
    ({ r with buffer := served.1, processed := served.2 }, data.length)
  else (r, 0)

/-- `MG_EV_RECV`, with what the network brought. -/
def recv (r : Receiver) (bytes : List UInt8) : Receiver :=
  if up r.processed then
    let r := { r with mbuf := r.mbuf ++ bytes }
    let out := incomingData up r r.mbuf
    { out.1 with mbuf := out.1.mbuf.drop out.2 }
  else r

/-- What is received, event by event. -/
def receive (size : ℕ) (blocks : List (List UInt8)) : Receiver :=
  blocks.foldl (recv up) (.new size)

/-! ### What is asked -/

/-- No complete line is left, in the line buffer or before it. -/
def Receiver.NoneLeft (r : Receiver) : Prop :=
  r.buffer.hasLine = none ∧ ∀ byte ∈ r.mbuf, isLineEnd byte = false

/-- No receive event leaves a complete line while the connection is up. -/
def Clears (size : ℕ) (blocks : List (List UInt8)) : Prop :=
  ∀ first, first <+: blocks → up (receive up size first).processed = true →
    (receive up size first).NoneLeft

/-- Two cuttings give the same lines, and no receive event leaves one, whatever the lines do to the
connection. -/
def Independent (size : ℕ) (A B : List (List UInt8)) : Prop :=
  ∀ up : List (List UInt8) → Bool,
    (receive up size A).processed = (receive up size B).processed ∧
      Clears up size A ∧ Clears up size B

/-- Every line of a stream is shorter than a size. -/
def Short (size : ℕ) (stream : List UInt8) : Prop :=
  ∀ line, line <:+: stream → (∀ byte ∈ line, isLineEnd byte = false) → line.length < size

/-! ### Offers that do not fit -/

/-- What the connection holds does not fit the line buffer. -/
def Receiver.Stuck (r : Receiver) : Prop := r.buffer.freeSpace < r.mbuf.length

variable {up} {r : Receiver}

theorem recv_of_full {bytes : List UInt8} (hup : up r.processed = true)
    (h : r.buffer.freeSpace < (r.mbuf ++ bytes).length) :
    recv up r bytes = { r with mbuf := r.mbuf ++ bytes } := by
  have hpush : r.buffer.pushBlock (r.mbuf ++ bytes) = (r.buffer, false) := if_pos h
  rw [recv, if_pos hup]
  simp [incomingData, hpush]

/-- More bytes do not help. -/
theorem stuck_recv (up : List (List UInt8) → Bool) (h : r.Stuck) (bytes : List UInt8) :
    (recv up r bytes).processed = r.processed ∧ (recv up r bytes).Stuck := by
  have hfull : r.buffer.freeSpace < (r.mbuf ++ bytes).length := by
    rw [List.length_append]
    exact Nat.lt_of_lt_of_le h (Nat.le_add_right _ _)
  by_cases hup : up r.processed = true
  · rw [recv_of_full hup hfull]
    exact ⟨rfl, hfull⟩
  · rw [recv, if_neg hup]
    exact ⟨rfl, h⟩

/-- **An offer that does not fit ends all processing**, whatever comes behind it. -/
theorem stuck_foldl (h : r.Stuck) (blocks : List (List UInt8)) :
    (blocks.foldl (recv up) r).processed = r.processed ∧ (blocks.foldl (recv up) r).Stuck := by
  induction blocks generalizing r with
  | nil => exact ⟨rfl, h⟩
  | cons bytes blocks ih =>
      obtain ⟨hsame, hstuck⟩ := stuck_recv up h bytes
      obtain ⟨hrest, hstuck⟩ := ih hstuck
      exact ⟨hrest.trans hsame, hstuck⟩

/-! ### Lines that are processed -/

variable (up)

/-- The lines of a list that are processed behind others: up to one that takes the connection
down. -/
def served (done : List (List UInt8)) : List (List UInt8) → List (List UInt8)
  | [] => []
  | line :: lines => if up done then line :: served (done ++ [line]) lines else []

variable {up}

theorem served_down {done : List (List UInt8)} (h : up done = false)
    (lines : List (List UInt8)) : served up done lines = [] := by
  cases lines with
  | nil => rfl
  | cons line lines => simp [served, h]

theorem served_append (done lines more : List (List UInt8)) :
    served up done (lines ++ more) =
      served up done lines ++ served up (done ++ served up done lines) more := by
  induction lines generalizing done with
  | nil => simp [served]
  | cons line lines ih =>
      rw [List.cons_append, served, served]
      split
      · rw [ih, List.cons_append, List.append_assoc, List.singleton_append]
      · rename_i hdown
        rw [List.nil_append, List.append_nil, served_down (by simpa using hdown)]

theorem serve_down {done : List (List UInt8)} (h : up done = false) (n : ℕ) (b : OvmsBuffer) :
    serve up n b done = (b, done) := by
  cases n with
  | zero => rfl
  | succ n => rw [serve, if_neg (by simp [h])]

/-- **The loop** processes the lines that there are, as long as the connection is up. -/
theorem serve_spec (up : List (List UInt8) → Bool) (n : ℕ) (b : OvmsBuffer)
    (done : List (List UInt8)) :
    (serve up n b done).2 = done ++ served up done (drain n b).2 ∧
      (up (serve up n b done).2 = true → (serve up n b done).1 = (drain n b).1) := by
  induction n generalizing b done with
  | zero => exact ⟨(List.append_nil done).symm, fun _ => rfl⟩
  | succ n ih =>
      rw [serve, drain]
      cases hline : b.hasLine with
      | none => simp [served]
      | some hl =>
          by_cases hup : up done = true
          · rw [if_pos ⟨rfl, hup⟩]
            by_cases hstays : up (done ++ [b.readLine.2]) = true
            · simp only [hstays, if_true, served, hup]
              refine ⟨?_, (ih b.readLine.1 (done ++ [b.readLine.2])).2⟩
              rw [(ih _ _).1, List.append_assoc, List.singleton_append]
            · have hdown := Bool.eq_false_iff.mpr hstays
              simp only [served, hup, if_true, serve_down hdown, served_down hdown]
              exact ⟨trivial, fun h => absurd h hstays⟩
          · simp [served, hup]

/-- A receiver between two events: the line buffer has no complete line, and the connection holds
nothing. -/
structure Ready (capacity : ℕ) (r : Receiver) (q : Fifo UInt8 capacity) : Prop where
  buffer : Represents r.buffer q
  noEnd : ∀ byte ∈ q.items, isLineEnd byte = false
  mbuf : r.mbuf = []

variable {capacity : ℕ} {q : Fifo UInt8 capacity} {bytes : List UInt8}

theorem Ready.noneLeft (h : Ready capacity r q) : r.NoneLeft := by
  constructor
  · rw [h.buffer.hasLine]
    exact List.findIdx?_eq_none_iff.mpr h.noEnd
  · rw [h.mbuf]
    exact fun byte hbyte => absurd hbyte List.not_mem_nil

/-- **A receive event** whose bytes fit: its lines are processed, and what is left has no line. -/
theorem Ready.recv (h : Ready capacity r q) (up : List (List UInt8) → Bool)
    (hup : up r.processed = true)
    (hfit : q.items.length + bytes.length ≤ capacity) :
    (recv up r bytes).processed = r.processed ++
        served up r.processed (scan q.items false (mark bytes)).1 ∧
      (up (recv up r bytes).processed = true →
        ∃ q' : Fifo UInt8 capacity, Ready capacity (recv up r bytes) q' ∧
          q'.items = (scan q.items false (mark bytes)).2) := by
  obtain ⟨hpush, q', hrep, hscan, hleft⟩ := h.buffer.block h.noEnd hfit
  let b := (r.buffer.pushBlock bytes).1
  have hserve := serve_spec up b.used b r.processed
  have hrecv : ServerV2.recv up r bytes =
      ⟨(serve up b.used b r.processed).1, [], (serve up b.used b r.processed).2⟩ := by
    rw [ServerV2.recv, if_pos hup]
    simp [incomingData, h.mbuf, hpush, b]
  rw [hrecv, hscan]
  refine ⟨hserve.1, fun hstays => ⟨q', ⟨?_, hleft, rfl⟩, rfl⟩⟩
  rw [hserve.2 hstays]
  exact hrep

theorem foldl_recv_down (h : up r.processed = false) (blocks : List (List UInt8)) :
    blocks.foldl (ServerV2.recv up) r = r := by
  induction blocks with
  | nil => rfl
  | cons bytes blocks ih => rw [List.foldl_cons, ServerV2.recv, if_neg (by simp [h]), ih]

/-- **What is processed** when all offers fit, and that no line is left. -/
theorem Ready.receive (h : Ready capacity r q) {blocks : List (List UInt8)}
    (hfits : Fits capacity q.items blocks) :
    (blocks.foldl (ServerV2.recv up) r).processed = r.processed ++
        served up r.processed (scan q.items false (cuts blocks)).1 ∧
      (up (blocks.foldl (ServerV2.recv up) r).processed = true →
        (blocks.foldl (ServerV2.recv up) r).NoneLeft) := by
  by_cases hup : up r.processed = true
  swap
  · have hdown := Bool.eq_false_iff.mpr hup
    rw [foldl_recv_down hdown, served_down hdown, List.append_nil]
    exact ⟨rfl, fun h => absurd h hup⟩
  induction blocks generalizing r q with
  | nil => exact ⟨(List.append_nil _).symm, fun _ => h.noneLeft⟩
  | cons bytes blocks ih =>
      obtain ⟨hprocessed, hstays⟩ := h.recv up hup hfits.1
      have hsplit : (scan q.items false (cuts (bytes :: blocks))).1 =
          (scan q.items false (mark bytes)).1 ++
            (scan (scan q.items false (mark bytes)).2 false (cuts blocks)).1 :=
        scan_append (fun line cr => scan_cuts line cr blocks) _ _ _
      rw [List.foldl_cons, hsplit, served_append, ← List.append_assoc, ← hprocessed]
      by_cases hnext : up (ServerV2.recv up r bytes).processed = true
      · obtain ⟨q', hready, hitems⟩ := hstays hnext
        rw [← hitems]
        exact ih hready (hitems ▸ hfits.2) hnext
      · have hdown := Bool.eq_false_iff.mpr hnext
        rw [foldl_recv_down hdown, served_down hdown, List.append_nil]
        exact ⟨rfl, fun h => absurd h hnext⟩

/-! ### Short lines -/

/-- What is left of marked bytes is the end of them. -/
theorem scan_suffix (line : List UInt8) (cr : Bool) (hcr : cr = true → line = [])
    (l : List (UInt8 × Bool)) : (scan line cr l).2 <:+ line ++ l.map Prod.fst := by
  induction l generalizing line cr with
  | nil =>
      rw [List.map_nil, List.append_nil]
      exact List.suffix_rfl
  | cons c l ih =>
      obtain ⟨byte, cut⟩ := c
      rw [scan, List.map_cons]
      split
      · rename_i hpair
        rw [hcr hpair.2.1]
        exact (ih [] false fun h => absurd h Bool.false_ne_true).trans (List.suffix_cons byte _)
      · split
        · have hrest := ih [] (byte == 13) fun _ => rfl
          exact hrest.trans ((List.suffix_cons byte _).trans (List.suffix_append line _))
        · have hrest := ih (line ++ [byte]) false fun h => absurd h Bool.false_ne_true
          rwa [List.append_assoc, List.singleton_append] at hrest

theorem map_fst_mark (block : List UInt8) : (mark block).map Prod.fst = block := by
  have hcuts := map_fst_cuts [block]
  simpa [cuts] using hcuts

/-- Bytes between which another one does not come are before it or behind it. -/
theorem isInfix_of_notMem {line back : List UInt8} {byte : UInt8} (front : List UInt8)
    (h : line <:+: front ++ byte :: back) (hbyte : byte ∉ line) :
    line <:+: front ∨ line <:+: back := by
  obtain ⟨s, t, hst⟩ := h
  rcases List.append_eq_append_iff.mp hst with ⟨a, rfl, -⟩ | ⟨c, hc, hback⟩
  · exact .inl ⟨s, a, rfl⟩
  · cases c with
    | nil =>
        rw [List.append_nil] at hc
        exact .inl ⟨s, [], by rw [List.append_nil, hc]⟩
    | cons x c =>
        obtain ⟨rfl, rfl⟩ := List.cons_eq_cons.mp hback
        rcases List.append_eq_append_iff.mp hc with ⟨a, -, rfl⟩ | ⟨d, -, hd⟩
        · exact absurd (List.mem_append_right a List.mem_cons_self) hbyte
        · cases d with
          | nil =>
              rw [List.nil_append] at hd
              exact absurd (hd ▸ List.mem_cons_self) hbyte
          | cons y d =>
              obtain ⟨-, rfl⟩ := List.cons_eq_cons.mp hd
              exact .inr ⟨d, t, rfl⟩

/-- A stream of short lines, each with its end. -/
theorem short_lines {size : ℕ} (lines : List (List UInt8)) (hsize : 0 < size)
    (h : ∀ line ∈ lines, line.length < size) :
    Short size (lines.flatMap fun line => line ++ [13, 10]) := by
  induction lines with
  | nil =>
      intro run hrun _
      obtain rfl := List.infix_nil.mp hrun
      exact hsize
  | cons line lines ih =>
      obtain ⟨hline, hlines⟩ := List.forall_mem_cons.mp h
      intro run hrun hends
      have hno : ∀ byte, isLineEnd byte = true → byte ∉ run := fun byte hbyte hmem =>
        Bool.false_ne_true ((hends byte hmem).symm.trans hbyte)
      rw [List.flatMap_cons, List.append_assoc] at hrun
      rcases isInfix_of_notMem line hrun (hno 13 rfl) with hrun | hrun
      · exact Nat.lt_of_le_of_lt hrun.length_le hline
      · rcases isInfix_of_notMem [] hrun (hno 10 rfl) with hrun | hrun
        · obtain rfl := List.infix_nil.mp hrun
          exact hsize
        · exact ih hlines run hrun hends

theorem Short.suffix {size : ℕ} {stream rest : List UInt8} (h : Short size stream)
    (hrest : rest <:+ stream) : Short size rest :=
  fun line hline => h line (hline.trans hrest.isInfix)

/-- **Short lines that are not left over fit**: what does not fit has the end of a line in it. -/
theorem Ready.fits_of_clears (h : Ready capacity r q) {blocks : List (List UInt8)}
    (hshort : Short capacity (q.items ++ blocks.flatten))
    (hclears : ∀ first, first <+: blocks →
      (first.foldl (ServerV2.recv fun _ => true) r).NoneLeft) : Fits capacity q.items blocks := by
  induction blocks generalizing r q with
  | nil => trivial
  | cons bytes blocks ih =>
      have hfit : q.items.length + bytes.length ≤ capacity := by
        by_contra! hfull
        have hoffer : r.buffer.freeSpace < (r.mbuf ++ bytes).length := by
          have hbound := q.bound
          rw [h.buffer.freeSpace_eq, Fifo.free, h.mbuf, List.nil_append]
          omega
        have hleft := (hclears [bytes] ⟨blocks, rfl⟩).2
        rw [List.foldl_cons, List.foldl_nil, recv_of_full rfl hoffer, h.mbuf,
          List.nil_append] at hleft
        have hline := hshort (q.items ++ bytes) ?_ ?_
        · rw [List.length_append] at hline
          omega
        · have hstream : q.items ++ bytes ++ blocks.flatten
              = q.items ++ (bytes :: blocks).flatten := by
            rw [List.flatten_cons, List.append_assoc]
          exact hstream ▸ (List.prefix_append _ _).isInfix
        · intro byte hbyte
          rcases List.mem_append.mp hbyte with hbyte | hbyte
          · exact h.noEnd byte hbyte
          · exact hleft byte hbyte
      obtain ⟨q', hready, hitems⟩ := (h.recv (fun _ => true) rfl hfit).2 rfl
      refine ⟨hfit, ?_⟩
      rw [← hitems]
      refine ih hready ?_ fun first hfirst => ?_
      · refine hshort.suffix ?_
        rw [hitems, List.flatten_cons, ← List.append_assoc]
        have hsuffix := scan_suffix q.items false
          (fun h => absurd h Bool.false_ne_true) (mark bytes)
        rw [map_fst_mark] at hsuffix
        obtain ⟨before, hbefore⟩ := hsuffix
        exact ⟨before, by rw [← List.append_assoc, hbefore]⟩
      · exact hclears (bytes :: first) ((List.prefix_cons_inj bytes).mpr hfirst)

/-! ### When the segments do not matter -/

theorem ready_new (size : ℕ) : Ready size (.new size) ⟨[], Nat.zero_le size⟩ :=
  ⟨represents_new size, fun _ hbyte => absurd hbyte List.not_mem_nil, rfl⟩

theorem Clears.fits {size : ℕ} {stream : List UInt8} {blocks : List (List UInt8)}
    (h : Clears (fun _ => true) size blocks) (hshort : Short size stream)
    (hblocks : blocks.flatten = stream) : Fits size [] blocks := by
  subst hblocks
  exact (ready_new size).fits_of_clears hshort fun first hfirst => h first hfirst rfl

/-- Two lines of 600 bytes are not processed when they come at once. -/
theorem not_independent : ¬ ∀ (stream : List UInt8) (A B : List (List UInt8)),
    Short bufferSize stream → A.flatten = stream → B.flatten = stream →
      Independent bufferSize A B := by
  intro h
  obtain ⟨line, hline⟩ : ∃ line : List UInt8, line.length = 600 :=
    ⟨List.replicate 600 97, List.length_replicate⟩
  have hshort : Short bufferSize ([line, line].flatMap fun line => line ++ [13, 10]) :=
    short_lines [line, line] (by decide) (by simp [hline, bufferSize])
  have hwhole : [line ++ 13 :: 10 :: line ++ [13, 10]].flatten
      = [line, line].flatMap fun line => line ++ [13, 10] := by simp
  have hcut : [line ++ [13, 10], line ++ [13, 10]].flatten
      = [line, line].flatMap fun line => line ++ [13, 10] := by simp
  obtain ⟨-, hclears, -⟩ := h _ _ _ hshort hwhole hcut fun _ => true
  have hfits := (hclears.fits hshort hwhole).1
  simp [bufferSize, hline] at hfits

end Ovms.ServerV2
