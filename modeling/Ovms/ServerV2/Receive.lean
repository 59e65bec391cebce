import Ovms.ServerV2.Command

/-!
# Messages from a Server V2

`OvmsServerV2::ProcessServerMsg` (`components/ovms_server_v2/src/ovms_server_v2.cpp`) behind the
login: a line is decoded and decrypted into a buffer and read as a string. In paranoid mode an
`EM` message is decoded and decrypted once more, into another buffer, and what comes out is put
together to a plain message.

The second buffer has one byte in front that is never written. The decoder starts at the code and
writes behind that byte, while the cipher starts with it; it is part of what is read as the data.
Nothing is known about it, so it is an argument.
-/

namespace Ovms.ServerV2

open Crypt

/-! ### Buffers -/

/-- `base64decode` into a buffer from an offset on, with the terminator behind. -/
def decodeInto (size offset : ℕ) (input : Text) : Except Fault Text :=
  let out := base64decode input
  if offset + out.length < size then pure out else throw .buffer

/-- `std::string::at`. -/
def charAt (line : Text) (i : ℕ) : Except Fault UInt8 :=
  match (line)[i]? with
  | none => throw .string
  | some c => pure c

/-- The outer layer of a message: base64, and the cipher of the session. -/
def decrypt (rx : Rc4) (line : Text) : Except Fault (Text × Rc4) := do
  let b ← decodeInto (line.length + 1) 0 line
  let out := rc4Crypt rx b
  pure (cString out.1, out.2)

/-- The inner layer of an `EM` message. The first byte of the buffer holds anything. -/
def decodeParanoid (pdigest : Text) (first : UInt8) (line : Text) : Except Fault Text := do
  let code ← charAt line 7
  let out ← decodeInto (line.length - 6) 1 (line.drop 7)
  let d := first :: out ++ [0]
  let d := (rc4Crypt (rc4Prime pdigest) (d.take out.length)).1 ++ d.drop out.length
  pure (mp0 ++ cString [code] ++ cString d)

/-! ### Messages -/

/-- What a message stands for. -/
inductive Message
  | invalid
  | ping
  | peers (nc : ℤ)
  | dataAck (ack : ℤ)
  | command (command : ℤ) (sep : Option Text)
  | other
  deriving DecidableEq

/-- The switch of `ProcessServerMsg`. -/
def dispatch (code : UInt8) (payload : Text) : Message :=
  if code = 0x41 then .ping
  else if code = 0x5A then .peers (atoi payload)
  else if code = 0x68 then .dataAck (atoi payload)
  else if code = 0x43 then .command (atoi payload) (index payload)
  else .other

/-- The code and the payload of a plain message. -/
def readPlain (line : Text) : Except Fault Message :=
  if line.length < 6 then throw .string else pure (dispatch (line.getD 5 0) (line.drop 6))

/-- From the decrypted text to the message. -/
def readMessage (pdigest : Text) (first : UInt8) (line : Text) : Except Fault Message :=
  if line.take 5 ≠ mp0 then pure .invalid
  else do
    if (← charAt line 5) = 0x45 then
      if (← charAt line 6) = 0x4D then
        readPlain (← decodeParanoid pdigest first line)
      else readPlain line
    else readPlain line

/-- What is done for a message, as far as it is sent or executed. -/
def act (env : Environment) (s : Session) : Message → Except Fault Session
  | .ping => perform s [.transmit (ascii "MP-0 a")]
  | .command command sep => processParsed env command sep >>= perform s
  | _ => pure s

/-- `ProcessServerMsg`, for a line behind the login. -/
def processLine (env : Environment) (first : UInt8) (rx : Rc4) (s : Session) (line : Text) :
    Except Fault (Session × Rc4) := do
  let text ← decrypt rx line
  let message ← readMessage s.pdigest first text.1
  let s' ← act env s message
  pure (s', text.2)

/-! ### Lengths -/

/-- The text that a line stands for. -/
def textOf (rx : Rc4) (line : Text) : Text := cString (rc4Crypt rx (base64decode line)).1

theorem decrypt_eq (rx : Rc4) (line : Text) :
    decrypt rx line = .ok (textOf rx line, (rc4Crypt rx (base64decode line)).2) := by
  have hlen := length_base64decode_le line
  rw [decrypt, decodeInto, if_pos (by omega)]
  rfl

/-- The data that an `EM` message is taken for. -/
def paranoidData (pdigest : Text) (first : UInt8) (encoded : Text) : Text :=
  let out := base64decode encoded
  let d := first :: out ++ [0]
  cString ((rc4Crypt (rc4Prime pdigest) (d.take out.length)).1 ++ d.drop out.length)

/-- The second buffer is long enough, and the message has a code. -/
theorem decodeParanoid_eq (pdigest : Text) (first code : UInt8) (rest : Text) :
    decodeParanoid pdigest first (mp0 ++ em ++ code :: rest) =
      .ok (mp0 ++ cString [code] ++ paranoidData pdigest first (code :: rest)) := by
  have hcode : (mp0 ++ em ++ code :: rest)[7]? = some code := rfl
  have hdrop : (mp0 ++ em ++ code :: rest).drop 7 = code :: rest := rfl
  have hlen := length_base64decode_lt (List.cons_ne_nil code rest)
  have hsum : (mp0 ++ em ++ code :: rest).length = rest.length + 8 := by simp [mp0, em]
  have hsize : 1 + (base64decode (code :: rest)).length <
      (mp0 ++ em ++ code :: rest).length - 6 := by
    rw [List.length_cons] at hlen
    omega
  rw [decodeParanoid, charAt, hcode, hdrop, decodeInto]
  simp only [pure_bind, if_pos hsize]
  rfl

/-! ### Lines without a fault -/

section Messages

variable {env : Environment} {pdigest : Text} {first code : UInt8} {data : Text}

theorem readMessage_invalid {text : Text} (h : text.take 5 ≠ mp0) :
    readMessage pdigest first text = .ok .invalid := if_pos h

theorem readPlain_mpMessage : readPlain (mpMessage code data) = .ok (dispatch code data) := by
  rw [readPlain, length_mpMessage, if_neg (by omega)]
  rfl

/-- A plain message is read as it stands. -/
theorem readMessage_plain (h : code = 0x45 → data ≠ [] ∧ ¬ [0x4D] <+: data) :
    readMessage pdigest first (mpMessage code data) = .ok (dispatch code data) := by
  have hfront : ¬ (mpMessage code data).take 5 ≠ mp0 := not_not.mpr rfl
  have hcode : charAt (mpMessage code data) 5 = .ok code := rfl
  rw [readMessage, if_neg hfront, hcode]
  by_cases hE : code = 0x45
  · obtain ⟨hne, hM⟩ := h hE
    obtain ⟨c, data, rfl⟩ := List.exists_cons_of_ne_nil hne
    have hc : c ≠ 0x4D := fun hc => hM ⟨data, by rw [hc]; rfl⟩
    have hat : charAt (mpMessage code (c :: data)) 6 = .ok c := rfl
    refine (if_pos hE).trans ?_
    rw [hat]
    exact (if_neg hc).trans readPlain_mpMessage
  · exact (if_neg hE).trans readPlain_mpMessage

/-- An `EM` message is read as what it is taken for. -/
theorem readMessage_em (hcode : code ≠ 0) (rest : Text) :
    readMessage pdigest first (mp0 ++ em ++ code :: rest) =
      .ok (dispatch code (paranoidData pdigest first (code :: rest))) := by
  have hstring : cString [code] = [code] := cString_eq_self (by simpa using hcode)
  have hfront : ¬ (mp0 ++ em ++ code :: rest).take 5 ≠ mp0 := not_not.mpr rfl
  have hE : charAt (mp0 ++ em ++ code :: rest) 5 = .ok 0x45 := rfl
  have hM : charAt (mp0 ++ em ++ code :: rest) 6 = .ok 0x4D := rfl
  rw [readMessage, if_neg hfront, hE, hM, decodeParanoid_eq, hstring]
  exact readPlain_mpMessage

theorem readMessage_short {text : Text} (h : text = mp0 ∨ text = mp0 ++ [0x45] ∨ text = mp0 ++ em) :
    readMessage pdigest first text = .error .string := by
  obtain rfl | rfl | rfl := h <;> rfl

/-- Only commands can go wrong when they are executed. -/
theorem act_dispatch_ok_iff (s : Session) :
    (∃ s', act env s (dispatch code data) = .ok s') ↔
      (code = 0x43 → SafeCommand env s.ptokenReady data) := by
  unfold dispatch
  by_cases hA : code = 0x41
  · subst hA
    refine iff_of_true ?_ fun h => absurd h (by decide)
    exact perform_ok (by simp [Effect.HasCode, ascii]) s
  rw [if_neg hA]
  by_cases hZ : code = 0x5A
  · subst hZ
    exact iff_of_true ⟨s, rfl⟩ fun h => absurd h (by decide)
  rw [if_neg hZ]
  by_cases hh : code = 0x68
  · subst hh
    exact iff_of_true ⟨s, rfl⟩ fun h => absurd h (by decide)
  rw [if_neg hh]
  by_cases hC : code = 0x43
  · rw [if_pos hC]
    exact (processCommand_ok_iff env s data).trans ⟨fun h _ => h, fun h => h hC⟩
  · rw [if_neg hC]
    exact iff_of_true ⟨s, rfl⟩ fun h => absurd h hC

/-- The message behind the second layer. -/
def plainOf (pdigest : Text) (first : UInt8) (text : Text) : Text :=
  if mp0 ++ em <+: text then
    mp0 ++ (text.drop 7).take 1 ++ paranoidData pdigest first (text.drop 7)
  else text

/-- The payload of a text that is a command in the end. -/
def Commands (pdigest : Text) (first : UInt8) (text payload : Text) : Prop :=
  plainOf pdigest first text = mpMessage 0x43 payload

/-- A text that can be processed: it does not end before its code, and as a command it can be
processed. -/
def SafeText (env : Environment) (s : Session) (first : UInt8) (text : Text) : Prop :=
  ¬ (text = mp0 ∨ text = mp0 ++ [0x45] ∨ text = mp0 ++ em) ∧
    ∀ payload, Commands s.pdigest first text payload → SafeCommand env s.ptokenReady payload

theorem mpMessage_eq_command {payload : Text} :
    mpMessage code data = mpMessage 0x43 payload ↔ code = 0x43 ∧ data = payload := by
  simp [mpMessage]

/-- A text that ends too early goes wrong. -/
theorem short_not_safe (s : Session) {text : Text}
    (h : text = mp0 ∨ text = mp0 ++ [0x45] ∨ text = mp0 ++ em) :
    (∃ s', readMessage s.pdigest first text >>= act env s = .ok s') ↔
      SafeText env s first text := by
  refine iff_of_false ?_ fun hsafe => hsafe.1 h
  rintro ⟨s', hs'⟩
  rw [readMessage_short h] at hs'
  cases hs'

/-- An `EM` message that has a code goes wrong if it is taken for a command that does. -/
theorem em_safe_iff (s : Session) (hcode : code ≠ 0) (rest : Text) :
    (∃ s', readMessage s.pdigest first (mp0 ++ em ++ code :: rest) >>= act env s = .ok s') ↔
      SafeText env s first (mp0 ++ em ++ code :: rest) := by
  have hcommands : ∀ payload, Commands s.pdigest first (mp0 ++ em ++ code :: rest) payload ↔
      code = 0x43 ∧ paranoidData s.pdigest first (code :: rest) = payload := by
    intro payload
    rw [Commands, plainOf, if_pos (List.prefix_append _ _)]
    exact mpMessage_eq_command
  have hlong : ¬ (mp0 ++ em ++ code :: rest = mp0 ∨ mp0 ++ em ++ code :: rest = mp0 ++ [0x45] ∨
      mp0 ++ em ++ code :: rest = mp0 ++ em) := by
    simp [mp0, em]
  rw [readMessage_em hcode, SafeText, and_iff_right hlong]
  refine (act_dispatch_ok_iff s).trans ?_
  simp only [hcommands, and_imp]
  exact ⟨fun h _ hC heq => heq ▸ h hC, fun h hC => h _ hC rfl⟩

/-- A plain message goes wrong if it is a command that does. -/
theorem plain_safe_iff (s : Session) (h : code = 0x45 → data ≠ [] ∧ ¬ [0x4D] <+: data) :
    (∃ s', readMessage s.pdigest first (mpMessage code data) >>= act env s = .ok s') ↔
      SafeText env s first (mpMessage code data) := by
  have hcommands : ∀ payload, Commands s.pdigest first (mpMessage code data) payload ↔
      code = 0x43 ∧ data = payload := by
    intro payload
    rw [Commands, plainOf, if_neg fun hem => ?_]
    · exact mpMessage_eq_command
    · obtain ⟨hE, hM⟩ := em_prefix_mpMessage.mp hem
      exact (h hE).2 hM
  have hlong : ¬ (mpMessage code data = mp0 ∨ mpMessage code data = mp0 ++ [0x45] ∨
      mpMessage code data = mp0 ++ em) := by
    rintro (heq | heq | heq)
    · simp [mpMessage, mp0] at heq
    · obtain ⟨rfl, rfl⟩ : code = 0x45 ∧ data = [] := by simpa [mpMessage, mp0] using heq
      exact (h rfl).1 rfl
    · obtain ⟨rfl, rfl⟩ : code = 0x45 ∧ data = [0x4D] := by
        simpa [mpMessage, mp0, em] using heq
      exact (h rfl).2 List.prefix_rfl
  rw [readMessage_plain h, SafeText, and_iff_right hlong]
  refine (act_dispatch_ok_iff s).trans ?_
  simp only [hcommands, and_imp]
  exact ⟨fun h _ hC heq => heq ▸ h hC, fun h hC => h _ hC rfl⟩

/-- **The texts that are processed without a fault.** -/
theorem readMessage_act_ok_iff (s : Session) {text : Text} (htext : ∀ c ∈ text, c ≠ 0) :
    (∃ s', readMessage s.pdigest first text >>= act env s = .ok s') ↔
      SafeText env s first text := by
  by_cases hmp : text.take 5 = mp0
  · obtain ⟨rest, rfl⟩ : ∃ rest, text = mp0 ++ rest :=
      ⟨text.drop 5, by rw [← hmp, List.take_append_drop]⟩
    rcases rest with _ | ⟨code, data⟩
    · exact short_not_safe s (.inl rfl)
    · by_cases hplain : code = 0x45 → data ≠ [] ∧ ¬ [0x4D] <+: data
      · exact plain_safe_iff s hplain
      · obtain ⟨rfl, hdata⟩ := Classical.not_imp.mp hplain
        rcases data with _ | ⟨c, data⟩
        · exact short_not_safe s (.inr (.inl rfl))
        · obtain ⟨rest, hrest⟩ : [0x4D] <+: c :: data := by simpa using hdata
          obtain ⟨rfl, rfl⟩ : 0x4D = c ∧ rest = data := by simpa using hrest
          rcases rest with _ | ⟨code, rest⟩
          · exact short_not_safe s (.inr (.inr rfl))
          · exact em_safe_iff s (htext code (by simp)) rest
  · rw [readMessage_invalid hmp]
    refine iff_of_true ⟨s, rfl⟩ ⟨?_, fun payload h => ?_⟩
    · rintro (rfl | rfl | rfl) <;> exact hmp rfl
    · exfalso
      refine hmp ?_
      rw [Commands, plainOf] at h
      split at h
      · next hem =>
        obtain ⟨rest, rfl⟩ := hem
        rfl
      · rw [h]
        rfl

/-- **Server messages that cannot break the parser**: a line is processed without a fault exactly
when its text does not end before its code, and as a command is neither without the line to
execute, nor with a negative number of a parameter, nor a reboot in paranoid mode. -/
theorem processLine_ok_iff (env : Environment) (first : UInt8) (rx : Rc4) (s : Session)
    (line : Text) :
    (∃ r, processLine env first rx s line = .ok r) ↔ SafeText env s first (textOf rx line) := by
  have htext : ∀ c ∈ textOf rx line, c ≠ 0 := fun c hc => ne_zero_of_mem_cString hc
  rw [← readMessage_act_ok_iff s htext, processLine, decrypt_eq]
  simp only [bind, Except.bind]
  split
  · next hread => simp
  · next message hread =>
    split
    · next hact => simp [hact]
    · next s' hact => simp [hact, pure, Except.pure]

theorem textOf_encode (rx : Rc4) (text : Text) (h : ∀ c ∈ text, c ≠ 0) :
    textOf rx (base64encode (rc4Crypt rx text).1) = text := by
  have hdecode : base64decode (base64encode (rc4Crypt rx text).1 ++ []) = (rc4Crypt rx text).1 :=
    base64decode_base64encode _ (fun c hc => by cases hc)
  rw [List.append_nil] at hdecode
  rw [textOf, hdecode, rc4Crypt_rc4Crypt, cString_eq_self h]

end Messages

/-- Without a vehicle, and with nobody who answers. -/
def noVehicle : Environment := ⟨none, fun _ _ => [], fun _ => [], fun _ => none⟩

/-- `MP-0 C7` has no line to execute. -/
theorem processLine_command7 :
    ¬ ∀ (env : Environment) (first : UInt8) (rx : Rc4) (s : Session) (line : Text),
      ∃ r, processLine env first rx s line = .ok r := by
  intro hall
  obtain ⟨r, hr⟩ := hall noVehicle 0 (rc4Prime [1]) ⟨rc4Prime [1], false, []⟩
    (base64encode (rc4Crypt (rc4Prime [1]) (mpMessage 0x43 [0x37])).1)
  have htext := textOf_encode (rc4Prime [1]) (mpMessage 0x43 [0x37])
    (by simp [mpMessage, mp0])
  rw [processLine, decrypt_eq, htext] at hr
  cases hr

/-! ### Paranoid mode -/

/-- A text that starts with a 9 is not the number 0. -/
theorem atoi_nine_ne_zero (text : Text) : atoi (0x39 :: text) ≠ 0 := by
  have hnine : Canlog.isDigitOf 10 0x39 = true := by decide
  have hspace : (0x39 :: text).dropWhile Canlog.isSpace = 0x39 :: text :=
    List.dropWhile_cons_of_neg (by decide)
  have hmark : Canlog.skipMark 10 (0x39 :: text) = 0x39 :: text :=
    Canlog.skipMark_eq_self (fun h => absurd h (by decide))
  have hpos := @Lib.value_cons_pos 10 9 (by decide) (by decide)
    ((text.takeWhile (Canlog.isDigitOf 10)).map fun c => (Canlog.digitOf c).getD 0)
  rw [atoi, Canlog.strtol, hspace, Canlog.readSign_of_isDigitOf hnine]
  simp only [hmark, List.takeWhile_cons_of_pos hnine]
  rw [if_neg (List.cons_ne_nil _ _)]
  have hdigit : (Canlog.digitOf 0x39).getD 0 = 9 := by decide
  simp only [List.map_cons, hdigit, Canlog.toLong]
  split
  · contradiction
  · split
    · simp only []
      omega
    · simp

/-- The byte in front of the buffer decides what the data starts with. -/
theorem exists_first (pdigest encoded : Text) (c : UInt8) :
    ∃ first rest, paranoidData pdigest first encoded = cString (c :: rest) := by
  rcases hout : base64decode encoded with _ | ⟨b, out⟩
  · exact ⟨c, [0], by rw [paranoidData, hout]; rfl⟩
  · have hfirst : ∀ first, ∃ rest, paranoidData pdigest first encoded =
        cString ((first ^^^ (rc4Next (rc4Prime pdigest)).1) :: rest) := by
      intro first
      rw [paranoidData, hout]
      exact ⟨_, rfl⟩
    obtain ⟨rest, hrest⟩ := hfirst (c ^^^ (rc4Next (rc4Prime pdigest)).1)
    rw [UInt8.xor_assoc, UInt8.xor_self, UInt8.xor_zero] at hrest
    exact ⟨_, rest, hrest⟩

/-- Whatever data was meant, another number may be read. -/
theorem exists_first_atoi_ne (pdigest encoded data : Text) :
    ∃ first, atoi (paranoidData pdigest first encoded) ≠ atoi data := by
  by_cases hzero : atoi data = 0
  · obtain ⟨first, rest, h⟩ := exists_first pdigest encoded 0x39
    refine ⟨first, ?_⟩
    have hstring : cString (0x39 :: rest) = 0x39 :: cString rest :=
      List.takeWhile_cons_of_pos (by decide)
    rw [h, hstring, hzero]
    exact atoi_nine_ne_zero _
  · obtain ⟨first, rest, h⟩ := exists_first pdigest encoded 0
    refine ⟨first, ?_⟩
    have hstring : cString (0 :: rest) = [] := List.takeWhile_cons_of_neg (by decide)
    rw [h, hstring]
    exact fun heq => hzero heq.symm

/-- The codes with a payload: `Z`, `h` and `C`. -/
def payloadCodes : Text := [0x5A, 0x68, 0x43]

/-- The codes that are acted on. -/
def codes : Text := 0x41 :: payloadCodes

section Paranoid

variable {code : UInt8} {a b : Text}

theorem dispatch_congr (h : code ∉ payloadCodes) : dispatch code a = dispatch code b := by
  simp only [payloadCodes, List.mem_cons, List.not_mem_nil, or_false, not_or] at h
  obtain ⟨hZ, hh, hC⟩ := h
  simp only [dispatch, if_neg hZ, if_neg hh, if_neg hC]

theorem atoi_eq_of_dispatch (hcode : code ∈ payloadCodes) (h : dispatch code a = dispatch code b) :
    atoi a = atoi b := by
  simp only [payloadCodes, List.mem_cons, List.not_mem_nil, or_false] at hcode
  obtain rfl | rfl | rfl := hcode
  · exact Message.peers.inj h
  · exact Message.dataAck.inj h
  · exact (Message.command.inj h).1

/-- The codes that are acted on, and the others. -/
theorem dispatch_eq_other : dispatch code a = .other ↔ code ∉ codes := by
  simp only [codes, payloadCodes, List.mem_cons, List.not_mem_nil, or_false, not_or, dispatch]
  split
  · next h => simp [h]
  · split
    · next h => simp [h]
    · split
      · next h => simp [h]
      · split <;> next h => simp [*]

/-- The codes and data for which paranoid mode is undone: codes without a payload, and of `E`
messages those that are plain when they are sent plainly, or stand for nothing either way. -/
def Undone (code : UInt8) (data : Text) : Prop :=
  code ∉ payloadCodes ∧
    (code = 0x45 → data ≠ [] ∧
      ∀ rest, data = 0x4D :: rest → ∃ c tail, rest = c :: tail ∧ c ∉ codes)

/-- The message that paranoid mode makes of a code and data. -/
def emMessage (pdigest : Text) (code : UInt8) (data : Text) : Text :=
  mp0 ++ em ++ code :: base64encode (rc4Crypt (rc4Prime pdigest) data).1

/-- An `EM` message with a code is a string. -/
theorem cString_emMessage (pdigest : Text) (hcode : code ≠ 0) (data : Text) :
    cString (emMessage pdigest code data) = emMessage pdigest code data := by
  refine cString_eq_self fun c hc => ?_
  obtain hc | hc := List.mem_append.mp hc
  · exact (show ∀ c ∈ mp0 ++ em, c ≠ 0 by simp [mp0, em]) c hc
  · obtain rfl | hc := List.mem_cons.mp hc
    · exact hcode
    · exact ne_zero_of_mem_base64encode hc

/-- So is a plain message, with data that is a string. -/
theorem cString_mpMessage {data : Text} (hcode : code ≠ 0) (hdata : ∀ c ∈ data, c ≠ 0) :
    cString (mpMessage code data) = mpMessage code data := by
  refine cString_eq_self fun c hc => ?_
  obtain hc | hc := List.mem_append.mp hc
  · exact (show ∀ c ∈ mp0, c ≠ 0 by simp [mp0]) c hc
  · obtain rfl | hc := List.mem_cons.mp hc
    · exact hcode
    · exact hdata c hc

theorem exists_first_dispatch_ne (pdigest encoded data : Text) (hcode : code ∈ payloadCodes) :
    ∃ first, dispatch code (paranoidData pdigest first encoded) ≠ dispatch code data := by
  obtain ⟨first, hne⟩ := exists_first_atoi_ne pdigest encoded data
  exact ⟨first, fun heq => hne (atoi_eq_of_dispatch hcode heq)⟩

/-- The command `MP-0 C6` is not what its `EM` message is taken for. -/
theorem paranoid_command6 (pdigest : Text) :
    ∃ first, readMessage pdigest first (cString (emMessage pdigest 0x43 [0x36])) ≠
      readMessage pdigest first (cString (mpMessage 0x43 [0x36])) := by
  obtain ⟨first, hne⟩ := exists_first_dispatch_ne pdigest
    (0x43 :: base64encode (rc4Crypt (rc4Prime pdigest) [0x36]).1) [0x36]
    (show (0x43 : UInt8) ∈ payloadCodes by decide)
  refine ⟨first, ?_⟩
  have hcommand : ∀ c ∈ [(0x36 : UInt8)], c ≠ 0 := by simp
  rw [cString_emMessage pdigest (by decide), cString_mpMessage (by decide) hcommand, emMessage,
    readMessage_em (by decide), readMessage_plain fun h => absurd h (by decide)]
  exact fun heq => hne (Except.ok.inj heq)

/-- **Paranoid mode is undone** exactly for the codes without a payload. -/
theorem paranoid_iff (pdigest : Text) (code : UInt8) (data : Text) (hdata : ∀ c ∈ data, c ≠ 0) :
    (∀ first, readMessage pdigest first (cString (emMessage pdigest code data)) =
      readMessage pdigest first (cString (mpMessage code data))) ↔ Undone code data := by
  by_cases hcode : code = 0
  · -- both texts end before the code
    subst hcode
    have hem : cString (emMessage pdigest 0 data) = mp0 ++ em :=
      cString_append_zero (by simp [mp0, em]) _
    have hplain : cString (mpMessage 0 data) = mp0 :=
      cString_append_zero (by simp [mp0]) _
    refine iff_of_true (fun first => ?_) ⟨by decide, fun h => absurd h (by decide)⟩
    rw [hem, hplain, readMessage_short (.inr (.inr rfl)), readMessage_short (.inl rfl)]
  · have hem := cString_emMessage pdigest hcode data
    have hplain := cString_mpMessage hcode hdata
    rw [hem, hplain]
    simp only [emMessage, readMessage_em hcode]
    by_cases hE : code = 0x45
    · subst hE
      have hother : ∀ x, dispatch 0x45 x = .other := fun x => dispatch_eq_other.mpr (by decide)
      have hnot : (0x45 : UInt8) ∉ payloadCodes := by decide
      simp only [hother, Undone, and_iff_right hnot, forall_const]
      rcases data with _ | ⟨d, data⟩
      · have hread : ∀ first, readMessage pdigest first (mpMessage 0x45 []) = .error .string :=
          fun first => readMessage_short (.inr (.inl rfl))
        simp [hread]
      · by_cases hM : d = 0x4D
        · subst hM
          rcases data with _ | ⟨c, tail⟩
          · have hread : ∀ first, readMessage pdigest first (mpMessage 0x45 [0x4D]) =
                .error .string := fun first => readMessage_short (.inr (.inr rfl))
            simp [hread]
          · have hc : c ≠ 0 := hdata c (by simp)
            have hread : ∀ first, readMessage pdigest first (mpMessage 0x45 (0x4D :: c :: tail)) =
                .ok (dispatch c (paranoidData pdigest first (c :: tail))) :=
              fun first => readMessage_em hc tail
            constructor
            · intro hall
              refine ⟨List.cons_ne_nil _ _, fun rest hrest => ⟨c, tail, ?_, ?_⟩⟩
              · exact (List.cons.inj hrest).2.symm
              · have h := hall 0
                rw [hread] at h
                exact dispatch_eq_other.mp (Except.ok.inj h).symm
            · rintro ⟨-, hrest⟩ first
              obtain ⟨c', tail', heq, hc'⟩ := hrest _ rfl
              obtain ⟨rfl, rfl⟩ := List.cons.inj heq
              rw [hread, dispatch_eq_other.mpr hc']
        · have hstart : ¬ [0x4D] <+: d :: data := by
            rintro ⟨rest, hrest⟩
            exact hM (List.cons.inj hrest).1.symm
          have hread : ∀ first, readMessage pdigest first (mpMessage 0x45 (d :: data)) =
              .ok (dispatch 0x45 (d :: data)) := fun first =>
            readMessage_plain fun _ => ⟨List.cons_ne_nil _ _, hstart⟩
          simp [hread, hother, hM]
    · have hread : ∀ first, readMessage pdigest first (mpMessage code data) =
          .ok (dispatch code data) := fun first => readMessage_plain fun h => absurd h hE
      simp only [hread, Except.ok.injEq, Undone]
      constructor
      · intro hall
        refine ⟨fun hmem => ?_, fun h => absurd h hE⟩
        obtain ⟨first, hne⟩ := exists_first_dispatch_ne pdigest
          (code :: base64encode (rc4Crypt (rc4Prime pdigest) data).1) data hmem
        exact hne (hall first)
      · rintro ⟨hmem, -⟩ first
        exact dispatch_congr hmem

/-- For `MP-0 A` with data the `EM` message does the same. -/
theorem paranoid_ping :
    (∀ first, readMessage [1] first (cString (emMessage [1] 0x41 [0x31])) =
      readMessage [1] first (cString (mpMessage 0x41 [0x31]))) ↔ Undone 0x41 [0x31] :=
  paranoid_iff [1] 0x41 [0x31] (by simp)

end Paranoid

/-- Paranoid mode is not undone for `MP-0 C6`. -/
theorem paranoid_not_undone :
    ¬ ∀ (pdigest : Text) (code : UInt8) (data : Text), (∀ c ∈ data, c ≠ 0) → ∀ first,
      readMessage pdigest first (cString (emMessage pdigest code data)) =
        readMessage pdigest first (cString (mpMessage code data)) := by
  intro hall
  obtain ⟨first, hne⟩ := paranoid_command6 [1]
  exact hne (hall [1] 0x43 [0x36] (by simp) first)

end Ovms.ServerV2
