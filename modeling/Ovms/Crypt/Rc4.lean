import Mathlib.Logic.Function.Basic
import Ovms.Lib.StreamCipher

/-!
# RC4

`components/crypto/crypt_rc4.cpp`. The state is two indices and a table of 256 bytes; an index is
a byte, so there is no index outside the table. `RC4_crypt` is the stream cipher of `rc4Next`.
-/

open Lib

namespace Ovms.Crypt

/-- `RC4_CTX1` and `RC4_CTX2`. -/
structure Rc4 where
  x : UInt8
  y : UInt8
  m : UInt8 → UInt8

/-- One round of the second loop of `RC4_setup`. -/
def setupRound (key : List UInt8) (s : UInt8 × (UInt8 → UInt8)) (i : ℕ) :
    UInt8 × (UInt8 → UInt8) :=
  let i' := UInt8.ofNat i
  let a := s.2 i'
  let j := s.1 + a + key.getD (i % key.length) 0
  (j, Function.update (Function.update s.2 i' (s.2 j)) j a)

/-- `RC4_setup`. -/
def rc4Setup (key : List UInt8) : Rc4 :=
  ⟨0, 0, ((List.range 256).foldl (setupRound key) (0, id)).2⟩

/-- One round of `RC4_crypt`: what is added to the byte, and the state. -/
def rc4Next (s : Rc4) : UInt8 × Rc4 :=
  let x := s.x + 1
  let a := s.m x
  let y := s.y + a
  let b := s.m y
  let m := Function.update (Function.update s.m x b) y a
  (m (a + b), ⟨x, y, m⟩)

/-- `RC4_crypt`. -/
def rc4Crypt (s : Rc4) (msg : List UInt8) : List UInt8 × Rc4 := crypt rc4Next s msg

/-- `RC4_setup` and the loop that throws 1024 bytes of the keystream away. -/
def rc4Prime (digest : List UInt8) : Rc4 := skip rc4Next 1024 (rc4Setup digest)

@[simp] theorem length_rc4Crypt (s : Rc4) (msg : List UInt8) :
    (rc4Crypt s msg).1.length = msg.length := length_crypt rc4Next s msg

/-- **The second application with the same state undoes the first.** -/
theorem rc4Crypt_rc4Crypt (s : Rc4) (msg : List UInt8) :
    (rc4Crypt s (rc4Crypt s msg).1).1 = msg := crypt_crypt rc4Next s msg

end Ovms.Crypt
