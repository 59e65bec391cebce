import Ovms.Bap.Element

/-!
# BAP Segmentation: the Sender

`sendElementFn` frames one telegram and hands the frames, one after the other, to a sink
that may reject any of them (`bap/bap.cpp`). A body of up to six bytes goes out as one
short frame; a longer one as a start frame with four body bytes, followed by
continuations of up to seven bytes under a 4-bit index; a body over 255 bytes is refused,
because the start frame announces the length in one byte.

The sink is a function on an explicit context, as the C function pointer and its `void*`
are. A frame is the list of the bytes it carries, so its DLC is the length of the list.

## Main results

* `sendElementFn_eq`: the sender offers exactly the frames of `framing`, in order, up to
  the first rejection, and its result tells how far it came.
* `framesSent_sendElementFn`: its result counts the frames that reached the sink.
* `framing_length`: `expectedFrames` counts the frames.
* `framing_dlc`: every frame has between one and eight bytes.
* `truthful_sendElementFn`: **the sender reports what happened**.
-/

namespace Ovms.Bap

/-- How a send ended. -/
inductive SendStatus
  | ok | refused | sinkFailedFirst | sinkFailedPartial
  deriving DecidableEq, Repr

/-- Outcome of a send: the status and the number of frames that reached the sink. -/
structure SendResult where
  status : SendStatus
  framesSent : ℕ
  deriving DecidableEq, Repr

/-- The whole element was sent. -/
def SendResult.isOk (r : SendResult) : Bool := r.status == .ok

/-- Number of frames a body of this size will be framed into, `0` if it cannot be. -/
def expectedFrames (bodyLen : ℕ) : ℕ :=
  if bodyLen ≤ 6 then 1
  else if bodyLen > 255 then 0
  else 1 + ((bodyLen - 4) + 6) / 7

section Sender

variable {σ : Type*} (sink : σ → List UInt8 → Bool × σ)

/-- The continuation loop of `sendElementFn`. Every round sends at least one byte, so
`bodyLen` rounds are enough fuel. -/
def sendConts (group : UInt8) (body : List UInt8) :
    ℕ → σ → ℕ → UInt8 → ℕ → SendResult × σ
  | 0, ctx, _, _, frames => (⟨.ok, frames⟩, ctx)
  | fuel + 1, ctx, off, index, frames =>
      if off < body.length then
        let chunk := if body.length - off > 7 then 7 else body.length - off
        let r := sink ctx (contControl group index :: (body.drop off).take chunk)
        if r.1 then
          sendConts group body fuel r.2 (off + chunk) ((index + 1) &&& 0xF) (frames + 1)
        else (⟨.sinkFailedPartial, frames⟩, r.2)
      else (⟨.ok, frames⟩, ctx)

/-- Frame one telegram into the sink. `body` is the buffer the caller passes, `none` for
a null pointer. -/
def sendElementFn (ctx : σ) (opcode lsg func : UInt8) (body : Option (List UInt8))
    (bodyLen : ℕ) (group : UInt8) : SendResult × σ :=
  if body.isNone && bodyLen != 0 then (⟨.refused, 0⟩, ctx)
  else
    let bytes := (body.getD []).take bodyLen
    let hdr := encodeHeader opcode lsg func
    if bodyLen ≤ 6 then
      let r := sink ctx (hdr.1 :: hdr.2 :: bytes)
      if r.1 then (⟨.ok, 1⟩, r.2) else (⟨.sinkFailedFirst, 0⟩, r.2)
    else if bodyLen > 255 then (⟨.refused, 0⟩, ctx)
    else
      let r := sink ctx
        (startControl group :: UInt8.ofNat bodyLen :: hdr.1 :: hdr.2 :: bytes.take 4)
      if r.1 then sendConts sink group bytes bodyLen r.2 4 0 1
      else (⟨.sinkFailedFirst, 0⟩, r.2)

/-- `sendElement`: the wrapper that fixes the channel to group 0. -/
def sendElement (ctx : σ) (opcode : Opcode) (lsg func : UInt8) (body : Option (List UInt8))
    (bodyLen : ℕ) : SendResult × σ :=
  sendElementFn sink ctx opcode.code lsg func body bodyLen 0

/-! ### The canonical framing -/

/-- The continuation frames of the bytes `rest`, numbered from `index`. -/
def contFrames (group index : UInt8) (rest : List UInt8) : List (List UInt8) :=
  if rest = [] then []
  else (contControl group index :: rest.take 7) ::
    contFrames group ((index + 1) &&& 0xF) (rest.drop 7)
termination_by rest.length
decreasing_by
  rename_i h
  have := List.length_pos_of_ne_nil h
  rw [List.length_drop]
  omega

@[simp] theorem contFrames_nil (group index : UInt8) : contFrames group index [] = [] := by
  rw [contFrames, if_pos rfl]

theorem contFrames_of_ne_nil (group index : UInt8) {rest : List UInt8} (h : rest ≠ []) :
    contFrames group index rest = (contControl group index :: rest.take 7) ::
      contFrames group ((index + 1) &&& 0xF) (rest.drop 7) := by
  rw [contFrames, if_neg h]

/-- The start frame of a long telegram. -/
def startFrame (opcode lsg func group : UInt8) (body : List UInt8) : List UInt8 :=
  startControl group :: UInt8.ofNat body.length :: (encodeHeader opcode lsg func).1 ::
    (encodeHeader opcode lsg func).2 :: body.take 4

/-- The frames of a telegram: one short frame, or a start frame and its continuations, or
nothing at all when the length does not fit the announcement. -/
def framing (opcode lsg func group : UInt8) (body : List UInt8) : List (List UInt8) :=
  if body.length ≤ 6 then
    [(encodeHeader opcode lsg func).1 :: (encodeHeader opcode lsg func).2 :: body]
  else if body.length > 255 then []
  else startFrame opcode lsg func group body :: contFrames group 0 (body.drop 4)

/-- Offer frames to a sink until it rejects one: how many it accepted, and its context. -/
def offer : σ → List (List UInt8) → ℕ × σ
  | ctx, [] => (0, ctx)
  | ctx, f :: fs =>
      let r := sink ctx f
      if r.1 then
        let rest := offer r.2 fs
        (rest.1 + 1, rest.2)
      else (0, r.2)

/-- A sink never accepts more frames than it is offered. -/
theorem offer_le (ctx : σ) (fs : List (List UInt8)) : (offer sink ctx fs).1 ≤ fs.length := by
  induction fs generalizing ctx with
  | nil => exact le_rfl
  | cons f fs ih =>
      simp only [offer, List.length_cons]
      split
      · exact Nat.succ_le_succ (ih _)
      · exact Nat.zero_le _

/-- The result the sender reports after `n` of the frames `fs` were accepted. -/
def resultOf (fs : List (List UInt8)) (n : ℕ) : SendResult :=
  if fs = [] then ⟨.refused, 0⟩
  else if n = fs.length then ⟨.ok, n⟩
  else if n = 0 then ⟨.sinkFailedFirst, 0⟩
  else ⟨.sinkFailedPartial, n⟩

/-- The report is a success exactly when there were frames and all were accepted. -/
theorem isOk_resultOf {fs : List (List UInt8)} {n : ℕ} :
    (resultOf fs n).isOk = true ↔ fs ≠ [] ∧ n = fs.length := by
  rw [resultOf, SendResult.isOk]
  by_cases h : fs = []
  · rw [if_pos h]
    simp [h]
  · rw [if_neg h]
    by_cases hn : n = fs.length
    · rw [if_pos hn]
      simp [h, hn]
    · rw [if_neg hn]
      split <;> simp [hn]

/-- The report counts the accepted frames. -/
theorem framesSent_resultOf {fs : List (List UInt8)} {n : ℕ} (h : n ≤ fs.length) :
    (resultOf fs n).framesSent = n := by
  rw [resultOf]
  by_cases hfs : fs = []
  · rw [if_pos hfs]
    rw [hfs, List.length_nil] at h
    exact (Nat.le_zero.mp h).symm
  · rw [if_neg hfs]
    split
    · rfl
    · split
      · rename_i h0
        exact h0.symm
      · rfl

/-- The continuation loop offers the continuations of what is left of the body. -/
theorem sendConts_eq (group : UInt8) (body : List UInt8) :
    ∀ (fuel : ℕ) (ctx : σ) (off : ℕ) (index : UInt8) (frames : ℕ),
      body.length ≤ off + fuel →
      sendConts sink group body fuel ctx off index frames =
        (let fs := contFrames group index (body.drop off)
         let r := offer sink ctx fs
         (⟨if r.1 = fs.length then .ok else .sinkFailedPartial, frames + r.1⟩, r.2)) := by
  intro fuel
  induction fuel with
  | zero =>
      intro ctx off index frames hfuel
      have hnil : body.drop off = [] := List.drop_eq_nil_of_le (by omega)
      simp [sendConts, hnil, offer]
  | succ fuel ih =>
      intro ctx off index frames hfuel
      rw [sendConts]
      by_cases hoff : off < body.length
      · have hne : body.drop off ≠ [] := by
          intro h
          have := congrArg List.length h
          rw [List.length_drop, List.length_nil] at this
          omega
        -- the chunk the source computes is what `take 7` leaves
        have hchunk : (body.drop off).take (if body.length - off > 7 then 7 else body.length - off)
            = (body.drop off).take 7 := by
          split
          · rfl
          · rw [List.take_of_length_le (by rw [List.length_drop]),
              List.take_of_length_le (by rw [List.length_drop]; omega)]
        have hrest : body.drop (off + (if body.length - off > 7 then 7 else body.length - off))
            = (body.drop off).drop 7 := by
          rw [List.drop_drop]
          split
          · rfl
          · rw [List.drop_eq_nil_of_le (by omega), List.drop_eq_nil_of_le (by omega)]
        rw [if_pos hoff, contFrames_of_ne_nil group index hne]
        simp only [hchunk, offer, List.length_cons]
        by_cases hacc : (sink ctx (contControl group index :: (body.drop off).take 7)).1 = true
        · rw [if_pos hacc, if_pos hacc, ih _ _ _ _ (by split <;> omega), hrest]
          simp only [Nat.add_right_cancel_iff, Prod.mk.injEq, SendResult.mk.injEq, and_true,
            true_and]
          omega
        · rw [if_neg hacc, if_neg hacc, if_neg (by omega)]
          rfl
      · have hnil : body.drop off = [] := List.drop_eq_nil_of_le (by omega)
        simp [hoff, hnil, offer]

/-- **The sender's contract.** Whatever the sink does, the sender offers the frames of the
canonical framing one after the other, stops at the first rejection, and reports how many
were accepted. -/
theorem sendElementFn_eq (ctx : σ) (opcode lsg func group : UInt8) (body : List UInt8) :
    sendElementFn sink ctx opcode lsg func (some body) body.length group =
      (let fs := framing opcode lsg func group body
       let r := offer sink ctx fs
       (resultOf fs r.1, r.2)) := by
  simp only [sendElementFn, Option.isNone_some, Bool.false_and, Bool.false_eq_true, if_false,
    Option.getD_some, List.take_length, framing]
  by_cases h6 : body.length ≤ 6
  · simp only [h6, if_true, offer]
    split <;> simp [resultOf]
  · by_cases h255 : body.length > 255
    · simp [h6, h255, offer, resultOf]
    · simp only [h6, h255, if_false, offer, startFrame]
      split
      · rw [sendConts_eq _ _ _ _ _ _ _ _ (by omega)]
        simp only [resultOf, List.length_cons, Nat.add_right_cancel_iff, reduceCtorEq,
          if_false, Nat.add_one_ne_zero, Nat.add_comm 1]
        split <;> rfl
      · simp [resultOf]

end Sender

/-! ### Shape of the frames -/

/-- The continuations of `n` bytes number `⌈n / 7⌉`. -/
theorem length_contFrames (group : UInt8) (index : UInt8) (rest : List UInt8) :
    (contFrames group index rest).length = (rest.length + 6) / 7 := by
  induction index, rest using contFrames.induct with
  | case1 index => simp
  | case2 index rest hne ih =>
      have := List.length_pos_of_ne_nil hne
      rw [contFrames_of_ne_nil group index hne, List.length_cons, ih, List.length_drop]
      omega

/-- `expectedFrames` counts the frames of the canonical framing. -/
theorem framing_length (opcode lsg func group : UInt8) (body : List UInt8) :
    (framing opcode lsg func group body).length = expectedFrames body.length := by
  rw [framing, expectedFrames]
  split
  · rfl
  · split
    · rfl
    · rw [List.length_cons, length_contFrames, List.length_drop]
      omega

/-- A telegram is framed into nothing exactly when its body is longer than the length
byte can say. -/
theorem framing_eq_nil {opcode lsg func group : UInt8} {body : List UInt8} :
    framing opcode lsg func group body = [] ↔ 255 < body.length := by
  rw [← List.length_eq_zero_iff, framing_length, expectedFrames]
  split
  · omega
  · split <;> omega

/-- A continuation frame has between two and eight bytes. -/
theorem contFrames_dlc {group index : UInt8} {rest f : List UInt8}
    (h : f ∈ contFrames group index rest) : 2 ≤ f.length ∧ f.length ≤ 8 := by
  induction index, rest using contFrames.induct with
  | case1 index => simp at h
  | case2 index rest hne ih =>
      have := List.length_pos_of_ne_nil hne
      rw [contFrames_of_ne_nil group index hne, List.mem_cons] at h
      rcases h with rfl | h
      · rw [List.length_cons, List.length_take]
        omega
      · exact ih h

/-- Every frame the sender produces fits a classic CAN frame and is not empty. -/
theorem framing_dlc {opcode lsg func group : UInt8} {body f : List UInt8}
    (h : f ∈ framing opcode lsg func group body) : 2 ≤ f.length ∧ f.length ≤ 8 := by
  rw [framing] at h
  split at h
  · rw [List.mem_singleton] at h
    subst h
    simp only [List.length_cons]
    omega
  · split at h
    · simp at h
    · rcases List.mem_cons.mp h with rfl | h
      · simp only [startFrame, List.length_cons, List.length_take]
        omega
      · exact contFrames_dlc h

/-! ### What the sink is presented -/

section Presented

variable {σ : Type*} (sink : σ → List UInt8 → Bool × σ)

/-- A sink that keeps the frames it is presented, with its answers. -/
def recorded (s : σ × List (List UInt8 × Bool)) (f : List UInt8) :
    Bool × σ × List (List UInt8 × Bool) :=
  let r := sink s.1 f
  (r.1, r.2, s.2 ++ [(f, r.1)])

/-- Frames of which the first `n` are accepted, and no other. -/
def answers (fs : List (List UInt8)) (n : ℕ) : List (List UInt8 × Bool) :=
  (fs.take n).map (fun f => (f, true)) ++ ((fs.drop n).take 1).map fun f => (f, false)

/-- The sink is presented the frames it accepts, and the first that it rejects. -/
theorem offer_recorded (ctx : σ) (log : List (List UInt8 × Bool)) (fs : List (List UInt8)) :
    offer (recorded sink) (ctx, log) fs =
      ((offer sink ctx fs).1, (offer sink ctx fs).2, log ++ answers fs (offer sink ctx fs).1) := by
  induction fs generalizing ctx log with
  | nil => simp [offer, answers]
  | cons f fs ih =>
      simp only [offer, recorded]
      by_cases hacc : (sink ctx f).1 = true
      · simp only [hacc, if_true]
        rw [ih]
        simp [answers]
      · simp [Bool.eq_false_iff.mpr hacc, answers]

theorem isPrefix_answers (fs : List (List UInt8)) (n : ℕ) :
    (answers fs n).map Prod.fst <+: fs := by
  have h : (answers fs n).map Prod.fst = fs.take (n + 1) := by
    rw [answers, List.map_append, List.map_map, List.map_map, List.take_add]
    exact congrArg₂ (· ++ ·) (List.map_id _) (List.map_id _)
  rw [h]
  exact List.take_prefix _ _

/-- Behind a frame that is rejected there is none. -/
theorem eq_nil_of_answers {fs : List (List UInt8)} {n : ℕ} {f : List UInt8}
    {pre post : List (List UInt8 × Bool)} (h : answers fs n = pre ++ (f, false) :: post) :
    post = [] := by
  have hlast : (((fs.drop n).take 1).map fun f => (f, false)).length ≤ 1 := by
    rw [List.length_map]
    exact List.length_take_le _ _
  rcases List.append_eq_append_iff.mp h with ⟨rest, -, hrest⟩ | ⟨rest, haccepted, hrest⟩
  · rw [hrest, List.length_append, List.length_cons] at hlast
    exact List.length_eq_zero_iff.mp (by omega)
  · cases rest with
    | nil =>
        rw [List.nil_append] at hrest
        rw [← hrest, List.length_cons] at hlast
        exact List.length_eq_zero_iff.mp (by omega)
    | cons answer rest =>
        -- the rejected frame would be one of those that were accepted
        obtain ⟨rfl, -⟩ := List.cons.inj hrest
        have hmem : (f, false) ∈ (fs.take n).map fun f => (f, true) := by
          rw [haccepted]
          exact List.mem_append_right _ List.mem_cons_self
        obtain ⟨_, -, h⟩ := List.mem_map.mp hmem
        cases h

theorem countP_answers {fs : List (List UInt8)} {n : ℕ} (h : n ≤ fs.length) :
    (answers fs n).countP (·.2) = n := by
  rw [answers, List.countP_append, List.countP_map, List.countP_map]
  simp [Function.comp_def, h]

/-- What is reported of a telegram is true: the sink is presented the frames of its framing, in
order and up to the first that it rejects, each of them fits a CAN frame, those it accepts are
counted, and a success is that there are frames to send and all of them were accepted. -/
structure Truthful (fs : List (List UInt8)) (expected : ℕ)
    (presented : List (List UInt8 × Bool)) (r : SendResult) : Prop where
  framed : presented.map Prod.fst <+: fs
  dlc : ∀ f ∈ presented, f.1.length ≤ 8
  stops : ∀ pre f post, presented = pre ++ (f, false) :: post → post = []
  counts : r.framesSent = presented.countP (·.2)
  status : r.isOk = true ↔ 0 < expected ∧ presented.countP (·.2) = expected

theorem sendElementFn_take (ctx : σ) (opcode lsg func group : UInt8) {bytes : List UInt8}
    {bodyLen : ℕ} (h : bodyLen ≤ bytes.length) :
    sendElementFn sink ctx opcode lsg func (some bytes) bodyLen group =
      sendElementFn sink ctx opcode lsg func (some (bytes.take bodyLen))
        (bytes.take bodyLen).length group := by
  rw [List.length_take_of_le h]
  simp only [sendElementFn, Option.isNone_some, Option.getD_some, List.take_take, Nat.min_self]

/-- A body that is there, of its length. -/
theorem truthful_some (ctx : σ) (opcode lsg func group : UInt8) (body : List UInt8) :
    (sendElementFn (recorded sink) (ctx, []) opcode lsg func (some body) body.length group).1 =
        (sendElementFn sink ctx opcode lsg func (some body) body.length group).1 ∧
      Truthful (framing opcode lsg func group body) (expectedFrames body.length)
        (sendElementFn (recorded sink) (ctx, []) opcode lsg func (some body) body.length group).2.2
        (sendElementFn sink ctx opcode lsg func (some body) body.length group).1 := by
  rw [sendElementFn_eq, sendElementFn_eq]
  dsimp only
  rw [offer_recorded, List.nil_append]
  have hle := offer_le sink ctx (framing opcode lsg func group body)
  refine ⟨rfl, isPrefix_answers _ _, fun f hf => ?_, fun _ _ _ => eq_nil_of_answers, ?_, ?_⟩
  · exact (framing_dlc ((isPrefix_answers _ _).subset (List.mem_map_of_mem hf))).2
  · rw [framesSent_resultOf hle, countP_answers hle]
  · rw [isOk_resultOf, countP_answers hle, framing_length, ← List.length_pos_iff, framing_length]

/-- **The sender reports what happened**, for every sink and every telegram: it does not see
that the frames are recorded, and its report is true of the record. -/
theorem truthful_sendElementFn (ctx : σ) (opcode lsg func group : UInt8)
    (body : Option (List UInt8)) (bodyLen : ℕ)
    (hbody : ∀ bytes, body = some bytes → bodyLen ≤ bytes.length) :
    (sendElementFn (recorded sink) (ctx, []) opcode lsg func body bodyLen group).1 =
        (sendElementFn sink ctx opcode lsg func body bodyLen group).1 ∧
      Truthful (framing opcode lsg func group ((body.getD []).take bodyLen))
        (expectedFrames bodyLen)
        (sendElementFn (recorded sink) (ctx, []) opcode lsg func body bodyLen group).2.2
        (sendElementFn sink ctx opcode lsg func body bodyLen group).1 := by
  cases body with
  | some bytes =>
      have hle := hbody bytes rfl
      have h := truthful_some sink ctx opcode lsg func group (bytes.take bodyLen)
      rw [← sendElementFn_take _ _ _ _ _ _ hle, ← sendElementFn_take _ _ _ _ _ _ hle,
        List.length_take_of_le hle] at h
      exact h
  | none =>
      by_cases hzero : bodyLen = 0
      · subst hzero
        exact truthful_some sink ctx opcode lsg func group []
      · -- a length without a body: nothing is presented
        have hrefused {τ : Type _} (f : τ → List UInt8 → Bool × τ) (t : τ) :
            sendElementFn f t opcode lsg func none bodyLen group = (⟨.refused, 0⟩, t) := by
          simp [sendElementFn, hzero]
        rw [hrefused, hrefused]
        refine ⟨rfl, List.nil_prefix, fun f hf => absurd hf List.not_mem_nil, ?_, rfl, ?_⟩
        · intro pre f post h
          exact absurd h.symm (List.append_ne_nil_of_right_ne_nil _ (List.cons_ne_nil _ _))
        · refine iff_of_false Bool.false_ne_true ?_
          rintro ⟨hpos, hcount⟩
          exact absurd hcount hpos.ne

end Presented

/-- A telegram of ten bytes, to a sink that takes one frame. -/
theorem truthful_sendElementFn_ten :
    (sendElementFn (recorded fun (n : ℕ) _ => (decide (n = 0), n + 1)) (0, []) 2 0x25 0x14
        (some [0, 1, 2, 3, 4, 5, 6, 7, 8, 9]) 10 0).1 = ⟨.sinkFailedPartial, 1⟩ ∧
      Truthful (framing 2 0x25 0x14 0 [0, 1, 2, 3, 4, 5, 6, 7, 8, 9]) 2
        (sendElementFn (recorded fun (n : ℕ) _ => (decide (n = 0), n + 1)) (0, []) 2 0x25 0x14
          (some [0, 1, 2, 3, 4, 5, 6, 7, 8, 9]) 10 0).2.2 ⟨.sinkFailedPartial, 1⟩ :=
  truthful_sendElementFn (fun (n : ℕ) _ => (decide (n = 0), n + 1)) 0 2 0x25 0x14 0
    (some [0, 1, 2, 3, 4, 5, 6, 7, 8, 9]) 10 (fun bytes h => by cases h; decide)

/-- **A body that cannot be framed is no success**, though all of the frames expected for it,
none, were accepted. -/
theorem not_isOk_of_expectedFrames :
    ¬ ∀ (sink : Unit → List UInt8 → Bool × Unit) (opcode lsg func group : UInt8)
        (body : List UInt8),
      ((sendElementFn sink () opcode lsg func (some body) body.length group).1.isOk = true ↔
        (sendElementFn (recorded sink) ((), []) opcode lsg func (some body) body.length
          group).2.2.countP (·.2) = expectedFrames body.length) := by
  intro h
  have hlong := h (fun _ _ => (true, ())) 2 0x25 0x14 0 (List.replicate 256 0)
  rw [sendElementFn, sendElementFn, List.length_replicate] at hlong
  exact absurd (hlong.mpr rfl) Bool.false_ne_true

end Ovms.Bap
