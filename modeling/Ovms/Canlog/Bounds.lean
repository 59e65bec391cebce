import Ovms.Canlog.Serve

/-!
# Lengths in the Stream

Three formats take the length of a frame from the stream: `pcap`, the GVRET commands, and
`cs11`. Each copies as many bytes as the stream says to the eight of a frame, and none
compares the number with eight. What a repeat of the server copies is in bounds exactly when
the length it finds fits: one that does not goes beyond the data of the frame, and for most
lengths makes a length code above eight, too.

`cs11` also takes what it reads into an array of twelve bytes on its way. It is not the
frame, and so has a bound of its own (`Contained`): between a length of twelve and one whose
code wraps around there are records that keep to the frame but not to this array.
-/

open Lib Ovms.Can Ovms.Buffer

namespace Ovms.Canlog

/-- The frame an effect is about. -/
def Effect.frame : Effect → Option Frame
  | .incoming f | .write f => some f
  | .transmit _ | .start _ _ | .configure _ _ _ | .pauseTransmission | .resumeTransmission
  | .clearFilters | .addFilter _ => none

/-- What a repeat of the server does with what `put` answered. -/
def Parsed.delivered (p : Parsed) : List Effect :=
  p.effects ++ serveFrame p.decoder.servemode p.message.frame

/-- The frames delivered have at most eight data bytes, and what is copied keeps to the data
of the frame and to the bytes buffered. -/
structure InBounds (p : Parsed) : Prop where
  dlc : ∀ e ∈ p.delivered, ∀ f ∈ e.frame, f.dlc.val ≤ 8
  copied : ∀ a ∈ p.accesses, a.region ≠ .scratch → a.extent ≤ a.size

/-- What is copied keeps to the local variables, too. -/
structure Contained (p : Parsed) : Prop extends InBounds p where
  scratch : ∀ a ∈ p.accesses, a.region = .scratch → a.extent ≤ a.size

/-! ### The length found -/

/-- The bytes behind a header that are taken for a record with a frame. -/
def pcapFoundRecord (b : List UInt8) : Option (List UInt8) :=
  if b.length < 32 ∨ pcapIgnored (b.take 32) = true then none else some (b.take 32)

/-- The bytes that `pcap` takes for one. -/
def pcapFound (b : List UInt8) : Option (List UInt8) :=
  if b.length < 24 then none
  else
    match pcapFront b with
    | .foreign => none
    | .header => pcapFoundRecord (b.drop 24)
    | .record => pcapFoundRecord b

/-- The length in a command to build a frame, if all of it is there. -/
def gvretFound (b : List UInt8) : Option ℕ :=
  let c := b.drop (b.takeWhile (· != 0xf1)).length
  let length := (c.getD 7 0).toNat
  if c.getD 1 0 = 0 ∧ 8 + length ≤ c.length then some length else none

/-- The length of a record of `cs11`, if all of it is there. -/
def cs11Found : List UInt8 → Option ℕ
  | [] => none
  | first :: rest =>
      if first = 0 ∨ first = 255 ∨ rest.length < first.toNat then none else some first.toNat

/-- The length found at the front of the buffer fits into a frame. -/
def Fits (format : Format) (b : List UInt8) : Prop :=
  match format with
  | .pcap => ∀ r ∈ pcapFound b, pcapLength r ≤ 8
  | .gvretBinary => ∀ n ∈ gvretFound b, n ≤ 8
  | .cs11 => ∀ n ∈ cs11Found b, 3 ≤ n ∧ (n - 3) % 16 ≤ 8
  | .crtd | .gvretAscii | .lawicel | .panda => True

/-- It fits into the local variables, too. -/
def FitsLocal (format : Format) (b : List UInt8) : Prop :=
  match format with
  | .pcap => ∀ r ∈ pcapFound b, pcapLength r ≤ 8
  | .gvretBinary => ∀ n ∈ gvretFound b, n ≤ 8
  | .cs11 => ∀ n ∈ cs11Found b, 3 ≤ n ∧ n ≤ 11
  | .crtd | .gvretAscii | .lawicel | .panda => True

/-! ### What is copied -/

theorem contained_quiet (d : Decoder) (more : Bool) : Contained (.quiet d more) where
  dlc e he := by
    rw [Parsed.delivered] at he
    cases he
  copied a ha := by cases ha
  scratch a ha := by cases ha

/-- What is done with a frame is done with this frame. -/
theorem mem_serveFrame {mode : ServeMode} {f : Frame} {e : Effect} (h : e ∈ serveFrame mode f) :
    e.frame = some f := by
  cases horigin : f.origin with
  | none =>
      simp only [serveFrame, horigin] at h
      cases h
  | some bus =>
      cases mode with
      | discard =>
          simp only [serveFrame, horigin] at h
          cases h
      | simulate | transmit =>
          simp only [serveFrame, horigin] at h
          rw [List.mem_singleton.mp h]
          rfl

theorem dlc_serveFrame {mode : ServeMode} {f : Frame} (hf : f.dlc.val ≤ 8) :
    ∀ e ∈ serveFrame mode f, ∀ g ∈ e.frame, g.dlc.val ≤ 8 := by
  intro e he g hg
  rw [mem_serveFrame he] at hg
  rw [← Option.some.inj hg]
  exact hf

theorem val_lengthCode_le (n : ℕ) : (lengthCode n).val ≤ n := Nat.mod_le n 16

theorem serveFrame_zero (mode : ServeMode) : serveFrame mode LogMessage.zero.frame = [] := by
  cases mode <;> rfl

/-- What is delivered besides frames has no length code. -/
theorem contained_of_quiet {p : Parsed} (hmessage : p.message = .zero)
    (heffects : ∀ e ∈ p.effects, e.frame = none) (haccesses : ∀ a ∈ p.accesses, a.extent ≤ a.size) :
    Contained p where
  dlc e he f hf := by
    rw [Parsed.delivered, hmessage, serveFrame_zero, List.append_nil] at he
    rw [heffects e he] at hf
    cases hf
  copied a ha _ := haccesses a ha
  scratch a ha _ := haccesses a ha

theorem bounds_of_contained {α : Type} {p : Parsed} {P Q : α → Prop} (h : Contained p) :
    (InBounds p ↔ ∀ r ∈ (none : Option α), P r) ∧
      (Contained p ↔ ∀ r ∈ (none : Option α), Q r) := by
  have hnone {P : α → Prop} : ∀ r ∈ (none : Option α), P r := fun r hr =>
    absurd hr (Option.not_mem_none r)
  exact ⟨iff_of_true h.toInBounds hnone, iff_of_true h hnone⟩

theorem bounds_of_copied {p : Parsed} {n : ℕ} (hle : n ≤ 8 → Contained p)
    (hcopied : ⟨.frameData, n, 8⟩ ∈ p.accesses) :
    (InBounds p ↔ n ≤ 8) ∧ (Contained p ↔ n ≤ 8) := by
  have hfits (h : InBounds p) : n ≤ 8 := h.copied _ hcopied Region.noConfusion
  exact ⟨⟨hfits, fun h => (hle h).toInBounds⟩, ⟨fun h => hfits h.toInBounds, hle⟩⟩

/-- A record of `pcap` is copied in bounds exactly when its length fits. -/
theorem bounds_pcapRecord (env : Env) (d : Decoder) :
    (InBounds (pcapRecord env d) ↔ ∀ r ∈ pcapFoundRecord d.items, pcapLength r ≤ 8) ∧
      (Contained (pcapRecord env d) ↔ ∀ r ∈ pcapFoundRecord d.items, pcapLength r ≤ 8) := by
  rw [pcapRecord, pcapFoundRecord]
  by_cases hlen : d.items.length < 32
  · rw [if_pos hlen, if_pos (.inl hlen)]
    exact bounds_of_contained (contained_quiet d true)
  · rw [if_neg hlen]
    cases hignored : pcapIgnored (d.items.take 32) with
    | true =>
        rw [if_pos rfl, if_pos (.inr rfl)]
        refine bounds_of_contained (contained_of_quiet rfl (List.forall_mem_nil _) fun a ha => ?_)
        rw [List.mem_singleton.mp ha]
        exact Nat.le_of_not_lt hlen
    | false =>
        rw [if_neg Bool.false_ne_true, if_neg fun h => h.elim hlen Bool.false_ne_true]
        obtain ⟨n, hn⟩ : ∃ n, n = pcapLength (d.items.take 32) := ⟨_, rfl⟩
        have hfound : (∀ r ∈ some (d.items.take 32), pcapLength r ≤ 8) ↔ n ≤ 8 := by
          rw [hn]
          exact ⟨fun h => h _ rfl, fun h r hr => Option.some.inj hr ▸ h⟩
        rw [hfound, ← hn]
        refine bounds_of_copied (fun hle => ⟨⟨dlc_serveFrame ?_, ?_⟩, ?_⟩) ?_
        · refine Nat.le_trans (val_lengthCode_le (pcapLength (d.items.take 32))) ?_
          rwa [← hn]
        · intro a ha _
          simp only [List.mem_cons, List.not_mem_nil, or_false] at ha
          rcases ha with rfl | rfl | rfl
          · exact Nat.le_of_not_lt hlen
          · exact Nat.add_le_add_left hle 24
          · exact hle
        · intro a ha hscratch
          simp only [List.mem_cons, List.not_mem_nil, or_false] at ha
          rcases ha with rfl | rfl | rfl <;> cases hscratch
        · simp

/-- What `pcap` copies is in bounds exactly when the length it finds fits. -/
theorem bounds_pcapParse (env : Env) (d : Decoder) :
    (InBounds (pcapParse env d) ↔ Fits .pcap d.items) ∧
      (Contained (pcapParse env d) ↔ FitsLocal .pcap d.items) := by
  rw [pcapParse, Fits, FitsLocal, pcapFound]
  split
  · exact bounds_of_contained (contained_quiet d false)
  · cases pcapFront d.items with
    | foreign => exact bounds_of_contained (contained_quiet _ true)
    | header => exact bounds_pcapRecord env (d.pop 24)
    | record => exact bounds_pcapRecord env d

/-- What is copied for a GVRET command is in bounds exactly when its length fits. -/
theorem bounds_gvretBinaryParse (env : Env) (d : Decoder) :
    (InBounds (gvretBinaryParse env d) ↔ Fits .gvretBinary d.items) ∧
      (Contained (gvretBinaryParse env d) ↔ FitsLocal .gvretBinary d.items) := by
  obtain ⟨t, ht⟩ : ∃ t, t = d.pop (d.items.takeWhile (· != 0xf1)).length := ⟨_, rfl⟩
  obtain ⟨n, hn⟩ : ∃ n, n = (t.items.getD 7 0).toNat := ⟨_, rfl⟩
  have hitems : d.items.drop (d.items.takeWhile (· != 0xf1)).length = t.items := by rw [ht]; rfl
  rw [gvretBinaryParse, ← ht, Fits, FitsLocal, gvretFound, hitems, ← hn]
  by_cases htwo : 2 ≤ t.items.length
  · rw [if_pos htwo, gvretCommand, ← hn]
    by_cases hcommand : t.items.getD 1 0 = 0
    · rw [if_pos hcommand]
      by_cases hlen : 8 + n ≤ t.items.length
      · rw [if_pos ⟨Nat.le_trans (Nat.le_add_right 8 n) hlen, hlen⟩, if_pos ⟨hcommand, hlen⟩]
        have hfound : (∀ k ∈ some n, k ≤ 8) ↔ n ≤ 8 :=
          ⟨fun h => h _ rfl, fun h k hk => Option.some.inj hk ▸ h⟩
        rw [hfound]
        refine bounds_of_copied (fun hle => ⟨⟨?_, ?_⟩, ?_⟩) ?_
        · intro e he
          rw [Parsed.delivered, List.mem_append, serveFrame_zero] at he
          refine dlc_serveFrame ?_ e (he.resolve_right List.not_mem_nil)
          change (lengthCode (t.items.getD 7 0).toNat).val ≤ 8
          rw [← hn]
          exact Nat.le_trans (val_lengthCode_le n) hle
        · intro a ha hregion
          simp only [List.mem_cons, List.not_mem_nil, or_false] at ha
          rcases ha with rfl | rfl | rfl | rfl
          · exact hlen
          · exact absurd rfl hregion
          · exact Nat.le_refl _
          · exact hle
        · intro a ha hregion
          simp only [List.mem_cons, List.not_mem_nil, or_false] at ha
          rcases ha with rfl | rfl | rfl | rfl
          · cases hregion
          · exact Nat.add_le_add_left hle 8
          · cases hregion
          · cases hregion
        · simp
      · rw [if_neg fun h => hlen h.2, if_neg fun h => hlen h.2]
        exact bounds_of_contained (contained_quiet t false)
    · rw [if_neg hcommand, if_neg fun h => hcommand h.1]
      refine bounds_of_contained (contained_of_quiet rfl (fun e he => ?_) (List.forall_mem_nil _))
      -- a reply is for the connection
      cases hreply : gvretReply env (t.items.getD 1 0) with
      | none =>
          simp only [hreply] at he
          cases he
      | some reply =>
          simp only [hreply] at he
          split at he
          · rw [List.mem_singleton.mp he]
            rfl
          · cases he
  · rw [if_neg htwo, if_neg fun h => htwo (by omega)]
    exact bounds_of_contained (contained_quiet t false)

theorem cs11Dlc_le_iff {n : ℕ} (hn : 0 < n) :
    ((cs11Dlc n).val ≤ 8 ∧ 4 + (cs11Dlc n).val ≤ n + 1 ↔ 3 ≤ n ∧ (n - 3) % 16 ≤ 8) := by
  have hdlc : (cs11Dlc n).val = (n + 13) % 16 := rfl
  omega

/-- A bus that is started is no frame. -/
theorem frame_of_mem_cs11Start {env : Env} {b : List UInt8} {e : Effect}
    (h : e ∈ cs11Start env b) : e.frame = none := by
  cases hbus : env.getBus (b.getD 1 0).toNat <;> cases hspeed : cs11Speed (b.getD 2 0) <;>
    simp only [cs11Start, hbus, hspeed] at h
  · cases h
  · cases h
  · cases h
  · rw [List.mem_singleton.mp h]
    rfl

/-- A record of `cs11` is copied in bounds exactly when its length fits. -/
theorem bounds_cs11Record (env : Env) {d : Decoder} {n : ℕ} (hlen : n + 1 ≤ d.items.length)
    (hpos : 0 < n) :
    (InBounds (cs11Record env d n) ↔ ∀ k ∈ some n, 3 ≤ k ∧ (k - 3) % 16 ≤ 8) ∧
      (Contained (cs11Record env d n) ↔ ∀ k ∈ some n, 3 ≤ k ∧ k ≤ 11) := by
  have hsome (P : ℕ → Prop) : (∀ k ∈ some n, P k) ↔ P n :=
    ⟨fun h => h _ rfl, fun h k hk => Option.some.inj hk ▸ h⟩
  have hinBounds : InBounds (cs11Record env d n) ↔ 3 ≤ n ∧ (n - 3) % 16 ≤ 8 := by
    rw [← cs11Dlc_le_iff hpos]
    constructor
    · intro h
      exact ⟨h.copied ⟨.frameData, (cs11Dlc n).val, 8⟩ (by simp [cs11Record]) Region.noConfusion,
        h.copied ⟨.record, 4 + (cs11Dlc n).val, n + 1⟩ (by simp [cs11Record])
          Region.noConfusion⟩
    · rintro ⟨hdlc, hrecord⟩
      refine ⟨fun e he f hf => ?_, fun a ha hregion => ?_⟩
      · rw [Parsed.delivered, List.mem_append] at he
        rcases he with he | he
        · -- the acknowledgement of a record
          have hack : e = .transmit [1, (d.items.take (n + 1)).getD 1 0] := by
            simp only [cs11Record] at he
            split at he
            · exact List.mem_singleton.mp he
            · cases he
          rw [hack] at hf
          cases hf
        · exact dlc_serveFrame hdlc e he f hf
      · simp only [cs11Record, List.mem_cons, List.not_mem_nil, or_false] at ha
        rcases ha with rfl | rfl | rfl | rfl
        · exact hlen
        · exact absurd rfl hregion
        · exact hrecord
        · exact hdlc
  rw [hsome, hsome]
  refine ⟨hinBounds, ?_⟩
  constructor
  · intro h
    have hscratch : n + 1 ≤ 12 :=
      h.scratch ⟨.scratch, n + 1, cs11MaxLen⟩ (by simp [cs11Record]) rfl
    exact ⟨(hinBounds.mp h.toInBounds).1, Nat.le_of_succ_le_succ hscratch⟩
  · rintro ⟨hthree, heleven⟩
    refine ⟨hinBounds.mpr ⟨hthree, by omega⟩, fun a ha hregion => ?_⟩
    simp only [cs11Record, List.mem_cons, List.not_mem_nil, or_false] at ha
    rcases ha with rfl | rfl | rfl | rfl
    · cases hregion
    · exact Nat.succ_le_succ heleven
    · cases hregion
    · cases hregion

/-- What `cs11` copies is in bounds exactly when the length it finds fits. -/
theorem bounds_cs11Parse (env : Env) (d : Decoder) :
    (InBounds (cs11Parse env d) ↔ Fits .cs11 d.items) ∧
      (Contained (cs11Parse env d) ↔ FitsLocal .cs11 d.items) := by
  rw [cs11Parse, Fits, FitsLocal]
  cases hitems : d.items with
  | nil => exact bounds_of_contained (contained_quiet d false)
  | cons first rest =>
      dsimp only
      rw [cs11Found]
      by_cases hsync : first = 0
      · rw [if_pos hsync, if_pos (.inl hsync)]
        refine bounds_of_contained (contained_of_quiet rfl (List.forall_mem_nil _) fun a ha => ?_)
        rw [List.mem_singleton.mp ha]
        decide
      · rw [if_neg hsync]
        by_cases hstart : first = 255
        · have hfound : cs11Found (first :: rest) = none := if_pos (.inr (.inl hstart))
          rw [cs11Found] at hfound
          rw [if_pos hstart, hfound]
          by_cases hthree : rest.length + 1 ≥ 3
          · rw [if_pos hthree]
            refine bounds_of_contained (contained_of_quiet rfl (fun e he => ?_) fun a ha => ?_)
            · rw [frame_of_mem_cs11Start he]
            · rw [List.mem_singleton.mp ha]
              decide
          · rw [if_neg hthree]
            exact bounds_of_contained (contained_quiet d false)
        · rw [if_neg hstart]
          by_cases hlen : rest.length < first.toNat
          · rw [if_neg (by omega), if_pos (.inr (.inr hlen))]
            exact bounds_of_contained (contained_quiet d false)
          · rw [if_pos (by omega), if_neg fun h => h.elim hsync fun h => h.elim hstart hlen]
            exact bounds_cs11Record env (by rw [hitems]; simpa using Nat.le_of_not_lt hlen)
              (Nat.pos_of_ne_zero fun h => hsync (UInt8.toNat_inj.mp h))

/-! ### The server -/

/-- The formats that take lengths from the stream. -/
def Format.TakesLengths (format : Format) : Prop :=
  format = .pcap ∨ format = .gvretBinary ∨ format = .cs11

/-- A repeat that parses its buffer finds a length that fits. -/
def FitsRepeat (fits : List UInt8 → Prop) (s : Serving) : Prop :=
  s.decoder.isServeDiscarding = false → s.decoder.buf.free ≠ 0 →
    fits (s.decoder.stuff s.input).1.items

/-- What holds of a parser exactly when the length fits holds so of its `put`. -/
theorem bufferedPut_iff {parse : Decoder → Parsed} {good : Parsed → Prop}
    {fits : List UInt8 → Prop} (hquiet : ∀ d more, good (.quiet d more))
    (hparse : ∀ d, good (parse d) ↔ fits d.items) (s : Serving) :
    good (bufferedPut parse s.decoder s.input).2 ↔ FitsRepeat fits s := by
  rw [bufferedPut, FitsRepeat]
  by_cases hfull : s.decoder.buf.free = 0
  · rw [if_pos hfull]
    exact iff_of_true (hquiet _ _) fun _ hfree => absurd hfull hfree
  · rw [if_neg hfull]
    cases hserve : s.decoder.isServeDiscarding with
    | true => exact iff_of_true (hquiet _ _) fun h => absurd h Bool.true_eq_false.mp
    | false =>
        rw [if_neg Bool.false_ne_true]
        exact (hparse _).trans ⟨fun h _ _ => h, fun h => h rfl hfull⟩

/-- **A repeat keeps its bounds exactly when the length it finds fits.** -/
theorem bounds_put_iff {format : Format} (hformat : format.TakesLengths) (s : Serving) :
    (InBounds (format.put (s.env 0) s.decoder s.input).2 ↔ FitsRepeat (Fits format) s) ∧
      (Contained (format.put (s.env 0) s.decoder s.input).2 ↔
        FitsRepeat (FitsLocal format) s) := by
  have hquiet (d : Decoder) (more : Bool) := contained_quiet d more
  rcases hformat with rfl | rfl | rfl
  · exact ⟨bufferedPut_iff (fun d more => (hquiet d more).toInBounds)
      (fun d => (bounds_pcapParse (s.env 0) d).1) s,
      bufferedPut_iff hquiet (fun d => (bounds_pcapParse (s.env 0) d).2) s⟩
  · exact ⟨bufferedPut_iff (fun d more => (hquiet d more).toInBounds)
      (fun d => (bounds_gvretBinaryParse (s.env 0) d).1) s,
      bufferedPut_iff hquiet (fun d => (bounds_gvretBinaryParse (s.env 0) d).2) s⟩
  · exact ⟨bufferedPut_iff (fun d more => (hquiet d more).toInBounds)
      (fun d => (bounds_cs11Parse (s.env 0) d).1) s,
      bufferedPut_iff hquiet (fun d => (bounds_cs11Parse (s.env 0) d).2) s⟩

/-- **Serving a stream keeps the bounds exactly when every length found fits**, however the
stream is split into chunks: the bounds of frames and of the bytes buffered, and these and
the bounds of the local variables. -/
theorem serve_inBounds_iff (format : Format) (hformat : format.TakesLengths) (d : Decoder)
    (stream : List Chunk) :
    (AlongSteps (ServesTo format)
        (fun d c => ∀ s, Repeated format d c s →
          InBounds (format.put (s.env 0) s.decoder s.input).2) d stream ↔
      AlongSteps (ServesTo format)
        (fun d c => ∀ s, Repeated format d c s → FitsRepeat (Fits format) s) d stream) ∧
    (AlongSteps (ServesTo format)
        (fun d c => ∀ s, Repeated format d c s →
          Contained (format.put (s.env 0) s.decoder s.input).2) d stream ↔
      AlongSteps (ServesTo format)
        (fun d c => ∀ s, Repeated format d c s → FitsRepeat (FitsLocal format) s) d stream) := by
  constructor
  · exact alongSteps_congr fun d c => forall₂_congr fun s _ => (bounds_put_iff hformat s).1
  · exact alongSteps_congr fun d c => forall₂_congr fun s _ => (bounds_put_iff hformat s).2

/-- A record of `pcap` with a length of nine: a frame with nine data bytes is delivered, and
nine bytes are copied to its eight. -/
theorem not_inBounds_of_nine :
    let c : Chunk := ⟨fun _ => .full, List.replicate 20 0 ++ 9 :: List.replicate 11 0⟩
    ¬ AlongSteps (ServesTo .pcap)
      (fun d c => ∀ s, Repeated .pcap d c s →
        InBounds (Format.pcap.put (s.env 0) s.decoder s.input).2) (.new .simulate) [c] := by
  intro c h
  have hfirst := h.1 (c.start (.new .simulate)) ⟨rfl, .first⟩
  obtain ⟨d, hd⟩ : ∃ d, d = (Decoder.new .simulate).holding c.bytes := ⟨_, rfl⟩
  have hitems : d.items = List.replicate 20 0 ++ 9 :: List.replicate 11 0 := by
    rw [hd]
    exact Decoder.items_holding (by decide)
  have hput : (Format.pcap.put .full (.new .simulate) c.bytes).2 = pcapParse .full d := by
    change (bufferedPut (pcapParse .full) (.new .simulate) c.bytes).2 = _
    rw [bufferedPut_of_items_eq_nil _ rfl rfl, List.take_of_length_le (by decide), ← hd]
  change InBounds (Format.pcap.put .full (.new .simulate) c.bytes).2 at hfirst
  rw [hput, (bounds_pcapParse .full d).1] at hfirst
  have hnine := hfirst (List.replicate 20 0 ++ 9 :: List.replicate 11 0) (by rw [hitems]; decide)
  exact absurd hnine (by decide)

/-- For example, with `cs11`, a stream of a record of five bytes. -/
theorem serve_inBounds_cs11 :
    let stream : List Chunk := [⟨fun _ => .full, [0, 5, 1, 0x34, 0x02, 0xab, 0xcd]⟩]
    (AlongSteps (ServesTo .cs11)
        (fun d c => ∀ s, Repeated .cs11 d c s →
          InBounds (Format.cs11.put (s.env 0) s.decoder s.input).2) (.new .transmit) stream ↔
      AlongSteps (ServesTo .cs11)
        (fun d c => ∀ s, Repeated .cs11 d c s → FitsRepeat (Fits .cs11) s)
        (.new .transmit) stream) ∧
    (AlongSteps (ServesTo .cs11)
        (fun d c => ∀ s, Repeated .cs11 d c s →
          Contained (Format.cs11.put (s.env 0) s.decoder s.input).2) (.new .transmit) stream ↔
      AlongSteps (ServesTo .cs11)
        (fun d c => ∀ s, Repeated .cs11 d c s → FitsRepeat (FitsLocal .cs11) s)
        (.new .transmit) stream) :=
  serve_inBounds_iff .cs11 (.inr (.inr rfl)) (.new .transmit) _

end Ovms.Canlog
