import Ovms.Bap.Delivery
import Ovms.EGolf.ProfileArray

/-!
# Commands, Sent and Received

The commands of `egolf/battery_control.h` that write a profile and that start or stop the
climatisation, from the sender through a sink that may reject a frame to the parser of the
receiver.

The climatisation is commanded by two telegrams. The second one, the trigger, is only sent behind
a first one that has left the sink.
-/

open Ovms.Bap

namespace Ovms.EGolf

/-! ### The header of an array write -/

/-- A command to the battery control. -/
def command (func : Func) (body : List UInt8) : Element :=
  ⟨Opcode.setGet.code, kLsg, func.code, body⟩

variable {maxBody maxPending : ℕ} {σ : Type*} {p : Profile}

theorem Profile.Named.length_encodeProfile (hp : p.Named) :
    (encodeProfile 45 p).length = 20 + p.nameLen.toNat := by
  obtain ⟨text, htext, hname⟩ := hp.name
  have hkept : keptName p.nameLen = p.nameLen := if_neg (UInt8.not_lt.mpr hp.le)
  rw [encodeProfile_eq, hkept, hname, ← htext, List.take_left, List.length_append,
    List.length_cons]
  change 19 + _ = _
  omega

/-- The body of a write of a profile. -/
def writeBody (tc : TxnCounter) (asgId recordAddr startIndex : UInt8) (p : Profile) : List UInt8 :=
  asgTxnByte asgId tc.next.last :: recordAddr :: startIndex :: 1 :: encodeProfile 45 p

/-- A profile whose name is supported is sent as one telegram. -/
theorem sendProfileWrite_eq (sink : σ → List UInt8 → Bool × σ) (ctx : σ) (tc : TxnCounter)
    (asgId recordAddr startIndex : UInt8) (hp : p.Named) :
    sendProfileWrite sink ctx tc asgId recordAddr startIndex p =
      (let body := writeBody tc asgId recordAddr startIndex p
       let r := sendElement sink ctx .setGet kLsg Func.profilesArray.code (some body) body.length
       (r.1, r.2, tc.next)) := by
  have hlen := hp.length_encodeProfile
  have hsize : kProfileFixedLen + kProfileMaxName.toNat + 1 = 45 := rfl
  have hrecord : (encodeProfile 45 p).isEmpty = false :=
    List.isEmpty_eq_false_iff.mpr (List.ne_nil_of_length_pos (by omega))
  have hname : p.nameLen.toNat ≤ 24 := UInt8.le_iff_toNat_le.mp hp.le
  have hbody : buildArrayWriteBody 49 (asgTxnByte asgId tc.next.last) recordAddr startIndex 1
      (encodeProfile 45 p) = writeBody tc asgId recordAddr startIndex p := if_neg (by omega)
  rw [sendProfileWrite, hsize]
  simp only [hrecord, hbody, Bool.false_eq_true, if_false]
  rfl

end Ovms.EGolf
