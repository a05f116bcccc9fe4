/-
This file puts together what is proved about the bounds of the decoders of serial receivers: which of
them stay inside their arrays on every stream, and on which streams the others do.
-/

import Urus.RcProtocol.St24
import Urus.RcProtocol.Sumd
import Urus.RcProtocol.Srxl

namespace Urus.RcProtocol

/-! ### All streams -/

/-- Each byte of a stream for `st24_decode` is one that leads to no access outside. -/
def St24Allowed (maxChanCount : ℕ) (bytes : List UInt8) : Prop :=
  Along (fun decoder byte => (St24.step maxChanCount decoder byte).1) (fun _ => True)
    (St24.Allowed maxChanCount) St24.start bytes

/-- Each byte of a stream for `sumd_decode` is one that leads to no access outside. -/
def SumdAllowed (maxChanCount : ℕ) (bytes : List UInt8) : Prop :=
  Along (fun decoder byte => (Sumd.step maxChanCount decoder byte).1) (fun _ => True)
    Sumd.Allowed Sumd.start bytes

/-- The decoders of ST24 and SUMD stay inside their arrays on every stream of allowed bytes, and
that of SRXL on every stream. -/
theorem serial_decoders_within (maxChanCount : ℕ) :
    (∀ bytes, St24Allowed maxChanCount bytes →
      ∀ access ∈ (Framing.run (St24.step maxChanCount) St24.start bytes).2,
        access.Within 64 0 maxChanCount) ∧
    (∀ bytes, SumdAllowed maxChanCount bytes →
      ∀ access ∈ (Framing.run (Sumd.step maxChanCount) Sumd.start bytes).2,
        access.Within 64 0 maxChanCount) ∧
    (∀ arrivals,
      ∀ access ∈ (Framing.run (Srxl.step maxChanCount) Srxl.start arrivals).2,
        access.Within 35 20 maxChanCount) :=
  ⟨fun _ allowed => St24.run_within allowed,
    fun _ allowed => Sumd.run_within maxChanCount allowed,
    fun arrivals => Srxl.run_within maxChanCount arrivals⟩

/-! ### Some streams -/

instance (maxChanCount : ℕ) (decoder : St24.Decoder) (byte : UInt8) :
    Decidable (St24.Allowed maxChanCount decoder byte) :=
  inferInstanceAs (Decidable ((_ → _) ∧ (_ → _ → ∀ most ∈ St24.channelsOf decoder.type, _)))

instance (decoder : Sumd.Decoder) (byte : UInt8) : Decidable (Sumd.Allowed decoder byte) :=
  inferInstanceAs (Decidable (_ → _))

instance (maxChanCount : ℕ) (bytes : List UInt8) : Decidable (St24Allowed maxChanCount bytes) :=
  decidableAlong bytes St24.start

instance (maxChanCount : ℕ) (bytes : List UInt8) : Decidable (SumdAllowed maxChanCount bytes) :=
  decidableAlong bytes Sumd.start

/-- An ST24 packet with channels, and the beginning of a SUMD packet with two of them. -/
def shortPacket : List UInt8 := [0x55, 0x55, 3, 0, 0, 189]
def twoChannels : List UInt8 := [0xA8, 0x01, 2, 0, 0, 0, 0]

theorem serial_decoders_within_short :
    (∀ access ∈ (Framing.run (St24.step 16) St24.start shortPacket).2, access.Within 64 0 16) ∧
    (∀ access ∈ (Framing.run (Sumd.step 16) Sumd.start twoChannels).2, access.Within 64 0 16) :=
  ⟨(serial_decoders_within 16).1 shortPacket (by decide +kernel),
    (serial_decoders_within 16).2.1 twoChannels (by decide +kernel)⟩

/-- An ST24 packet of length zero and a SUMD packet with all channels are stored behind the end of
the array, and an ST24 packet for a caller with room for five values writes six. -/
theorem serial_decoders_exceed :
    ¬ (∀ bytes, ∀ access ∈ (Framing.run (St24.step 16) St24.start bytes).2,
      access.Within 64 0 16) ∧
    ¬ (∀ bytes, ∀ access ∈ (Framing.run (Sumd.step 16) Sumd.start bytes).2,
      access.Within 64 0 16) ∧
    ¬ (∀ bytes, ∀ access ∈ (Framing.run (St24.step 5) St24.start bytes).2,
      access.Within 64 0 5) := by
  refine ⟨fun within => ?_, fun within => ?_, fun within => ?_⟩
  · have outside := within ([0x55, 0x55, 0] ++ List.replicate 66 0) (.buffer 64)
      (by decide +kernel)
    exact absurd outside (by decide)
  · have outside := within ([0xA8, 0x01, 32] ++ List.replicate 64 0) (.buffer 64)
      (by decide +kernel)
    exact absurd outside (by decide)
  · have outside := within shortPacket (.value 5) (by decide +kernel)
    exact absurd outside (by decide)

end Urus.RcProtocol
