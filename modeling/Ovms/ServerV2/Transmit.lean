import Ovms.Crypt.Base64
import Ovms.Crypt.Rc4

/-!
# Sending to a Server V2

`OvmsServerV2::Transmit` (`components/ovms_server_v2/src/ovms_server_v2.cpp`). A message is
copied into a buffer, encrypted with the cipher of the session and sent as a line in base64. In
paranoid mode most messages are written anew before that, with their data encrypted once more,
and in base64.

The message that is written anew is longer, but it is sent with the length of the old one. So
nothing that goes through paranoid mode arrives whole.
-/

namespace Ovms.ServerV2

open Crypt

/-- A message: its bytes. -/
abbrev Text := List UInt8

/-- `MP-0 `. -/
def mp0 : Text := [0x4D, 0x50, 0x2D, 0x30, 0x20]

/-- `EM`. -/
def em : Text := [0x45, 0x4D]

/-- The end of a line. -/
def crlf : Text := [0x0D, 0x0A]

/-- The codes that paranoid mode leaves alone: `E`, `A`, `a`, `g` and `P`. -/
def plainCodes : Text := [0x45, 0x41, 0x61, 0x67, 0x50]

/-- What `Transmit` uses of the session: the cipher that sends, whether the token of paranoid
mode was sent, and the digest for it. -/
structure Session where
  tx : Rc4
  ptokenReady : Bool
  pdigest : Text

/-- The message that is written over the old one in paranoid mode, with its terminator. -/
def paranoidMessage (pdigest message : Text) : Text :=
  mp0 ++ em ++ (message.drop 5).take 1 ++
    base64encode (rc4Crypt (rc4Prime pdigest) (message.drop 6)).1 ++ [0]

/-- Bytes written over the start of a buffer. -/
def overwrite (front old : Text) : Text := front ++ old.drop front.length

/-- A message is written anew. -/
def Session.converts (s : Session) (message : Text) : Bool :=
  s.ptokenReady && !plainCodes.contains (message.getD 5 0)

/-- The bytes that are encrypted for the line. -/
def Session.plainText (s : Session) (message : Text) : Text :=
  (if s.converts message then overwrite (paranoidMessage s.pdigest message) message
    else message).take message.length

/-- `OvmsServerV2::Transmit`. In paranoid mode a message without a code is read beyond its end. -/
def transmit (s : Session) (message : Text) : Option (Text × Session) :=
  if s.ptokenReady && decide (message.length < 6) then none
  else
    let out := rc4Crypt s.tx (s.plainText message)
    some (base64encode out.1 ++ crlf, { s with tx := out.2 })

/-! ### What a server reads -/

/-- The inner base64 and the paranoid cipher of an `EM` message. -/
def openParanoid (pdigest text : Text) : Text :=
  if mp0 ++ em <+: text then
    mp0 ++ (text.drop 7).take 1 ++ (rc4Crypt (rc4Prime pdigest) (base64decode (text.drop 8))).1
  else text

/-- A line, decoded and run through the cipher of the session, and through that of paranoid mode
if it is an `EM` message. -/
def recover (s : Session) (line : Text) : Text :=
  openParanoid s.pdigest (rc4Crypt s.tx (base64decode line)).1

theorem crlf_skipped : ∀ c ∈ crlf, c ≠ 0 ∧ value c = none := by decide +kernel

theorem recover_eq (s : Session) (message : Text) :
    recover s (base64encode (rc4Crypt s.tx (s.plainText message)).1 ++ crlf) =
      openParanoid s.pdigest (s.plainText message) := by
  rw [recover, base64decode_base64encode _ crlf_skipped, rc4Crypt_rc4Crypt]

theorem length_base64decode_le (input : Text) : (base64decode input).length ≤ input.length := by
  by_cases h : input = []
  · subst h
    exact le_refl 0
  · exact (length_base64decode_lt h).le

/-- An `EM` message is longer than what it stands for. -/
theorem length_openParanoid_lt (pdigest : Text) {text : Text} (h : mp0 ++ em <+: text) :
    (openParanoid pdigest text).length < text.length := by
  have hlen : 7 ≤ text.length := h.length_le
  have hinner := length_base64decode_le (text.drop 8)
  rw [List.length_drop] at hinner
  rw [openParanoid, if_pos h]
  simp only [List.length_append, List.length_take, List.length_drop, length_rc4Crypt]
  have : mp0.length = 5 := rfl
  omega

/-- The message `MP-0 X` with its data. -/
def mpMessage (code : UInt8) (data : Text) : Text := mp0 ++ code :: data

theorem length_mpMessage (code : UInt8) (data : Text) :
    (mpMessage code data).length = data.length + 6 := by
  simp [mpMessage, mp0]

theorem em_prefix_mpMessage {code : UInt8} {data : Text} :
    mp0 ++ em <+: mpMessage code data ↔ code = 0x45 ∧ [0x4D] <+: data := by
  rw [mpMessage, List.prefix_append_right_inj, em, List.cons_prefix_cons, eq_comm]

theorem length_overwrite_ge (front old : Text) : old.length ≤ (overwrite front old).length := by
  rw [overwrite, List.length_append, List.length_drop]
  omega

section Messages

variable {s : Session} {code : UInt8} {data : Text}

theorem converts_mpMessage :
    s.converts (mpMessage code data) = (s.ptokenReady && !plainCodes.contains code) := rfl

theorem length_plainText (s : Session) (message : Text) :
    (s.plainText message).length = message.length := by
  rw [Session.plainText, List.length_take, min_eq_left]
  split
  · exact length_overwrite_ge _ _
  · exact le_refl _

theorem plainText_of_converts (h : s.converts (mpMessage code data) = true) :
    ∃ rest, s.plainText (mpMessage code data) = (mp0 ++ em ++ rest).take (data.length + 6) := by
  refine ⟨code :: base64encode (rc4Crypt (rc4Prime s.pdigest) data).1 ++ [0] ++
    (mpMessage code data).drop (paranoidMessage s.pdigest (mpMessage code data)).length, ?_⟩
  rw [Session.plainText, if_pos h, length_mpMessage, overwrite]
  simp [paranoidMessage, mpMessage, mp0]

/-- **A message that is written anew does not arrive.** With data, its start is an `EM` message,
which stands for a message that is too short. Without, the start is cut off at the `E`. -/
theorem openParanoid_plainText_ne (h : s.converts (mpMessage code data) = true) :
    openParanoid s.pdigest (s.plainText (mpMessage code data)) ≠ mpMessage code data := by
  have hlen := length_plainText s (mpMessage code data)
  obtain ⟨rest, hrest⟩ := plainText_of_converts h
  cases data with
  | nil =>
    have htext : s.plainText (mpMessage code []) = mp0 ++ [0x45] := hrest
    rw [htext, openParanoid, if_neg (by decide)]
    intro heq
    have hcode : (0x45 : UInt8) = code := by simpa [mpMessage] using heq
    rw [converts_mpMessage, ← hcode] at h
    simp [plainCodes] at h
  | cons b data =>
    have hem : mp0 ++ em <+: s.plainText (mpMessage code (b :: data)) := by
      rw [hrest, List.prefix_take_iff]
      exact ⟨List.prefix_append _ _, by simp [mp0, em]⟩
    intro heq
    have hlt := length_openParanoid_lt s.pdigest hem
    rw [heq] at hlt
    omega

variable (s code data)

/-- The line that is sent is read back if what is encrypted stands for the message. -/
theorem recover_transmit :
    (∃ line s', transmit s (mpMessage code data) = some (line, s') ∧
      recover s line = mpMessage code data) ↔
      openParanoid s.pdigest (s.plainText (mpMessage code data)) = mpMessage code data := by
  have hlong : (s.ptokenReady && decide ((mpMessage code data).length < 6)) = false := by
    rw [length_mpMessage]
    simp
  rw [transmit, hlong, if_neg Bool.false_ne_true, ← recover_eq]
  simp

/-- **Transmission is faithful** to the messages that are not written anew, and to no others;
a message that is an `EM` message to begin with is not read back either. -/
theorem recover_transmit_iff :
    (∃ line s', transmit s (mpMessage code data) = some (line, s') ∧
      recover s line = mpMessage code data) ↔
      (s.ptokenReady = false ∨ code ∈ plainCodes) ∧ ¬ (code = 0x45 ∧ [0x4D] <+: data) := by
  rw [recover_transmit]
  by_cases h : s.converts (mpMessage code data) = true
  · refine iff_of_false (openParanoid_plainText_ne h) ?_
    rw [converts_mpMessage] at h
    simp only [Bool.and_eq_true, Bool.not_eq_true', List.contains_eq_mem, decide_eq_false_iff_not]
      at h
    rintro ⟨hready | hcode, -⟩
    · rw [h.1] at hready
      cases hready
    · exact h.2 hcode
  · have hplain : s.plainText (mpMessage code data) = mpMessage code data := by
      rw [Session.plainText, if_neg h, List.take_length]
    have hcode : s.ptokenReady = false ∨ code ∈ plainCodes := by
      rw [converts_mpMessage] at h
      simpa [or_iff_not_imp_left] using h
    rw [hplain, and_iff_right hcode, ← em_prefix_mpMessage]
    constructor
    · intro heq hem
      have hlt := length_openParanoid_lt s.pdigest hem
      rw [heq] at hlt
      exact lt_irrefl _ hlt
    · intro hem
      rw [openParanoid, if_neg hem]

theorem not_recover_stat (tx : Rc4) (pdigest : Text) :
    ¬ ∃ line s', transmit ⟨tx, true, pdigest⟩ (mpMessage 0x53 [0x30]) = some (line, s') ∧
      recover ⟨tx, true, pdigest⟩ line = mpMessage 0x53 [0x30] := by
  rw [recover_transmit]
  exact openParanoid_plainText_ne (by simp [converts_mpMessage, plainCodes])

end Messages

/-- A session in paranoid mode in which `MP-0 S0` does not arrive. -/
theorem transmit_cut :
    ¬ ∀ (s : Session) (code : UInt8) (data : Text), ∃ line s',
      transmit s (mpMessage code data) = some (line, s') ∧
        recover s line = mpMessage code data := fun hall =>
  not_recover_stat (rc4Prime [1]) [2] (hall ⟨rc4Prime [1], true, [2]⟩ 0x53 [0x30])

end Ovms.ServerV2
