import Mathlib.Data.List.Basic

/-!
# Stream Ciphers

A stream cipher makes one byte of keystream after the other from its state, and encrypts by
adding the bytes of the keystream to those of the message. What it does to a message depends on
the state it starts in and on nothing else, so the same state decrypts.
-/

namespace Lib

section Cipher

variable {σ : Type*} (next : σ → UInt8 × σ)

/-- Encrypt or decrypt a message: what becomes of it, and of the state. -/
def crypt : σ → List UInt8 → List UInt8 × σ
  | s, [] => ([], s)
  | s, b :: rest =>
    let out := next s
    let tail := crypt out.2 rest
    ((b ^^^ out.1) :: tail.1, tail.2)

/-- The state after some bytes of keystream. -/
def skip : ℕ → σ → σ
  | 0, s => s
  | n + 1, s => skip n (next s).2

@[simp] theorem length_crypt (s : σ) (msg : List UInt8) :
    (crypt next s msg).1.length = msg.length := by
  induction msg generalizing s with
  | nil => rfl
  | cons b rest ih => simp [crypt, ih]

/-- **The second application with the same state undoes the first.** -/
theorem crypt_crypt (s : σ) (msg : List UInt8) :
    (crypt next s (crypt next s msg).1).1 = msg := by
  induction msg generalizing s with
  | nil => rfl
  | cons b rest ih =>
    simp only [crypt, ih]
    rw [UInt8.xor_assoc, UInt8.xor_self, UInt8.xor_zero]

end Cipher

end Lib
