/-
This file joins an upload and a download. What was uploaded is what is downloaded.
-/

import Urus.Mission.Download
import Urus.Mission.Reupload

namespace Urus.GcsMavlink

open ApMission

/-- The item as one with integers. -/
def Item.toInt : Item → MissionItemInt
  | .itemInt packet => packet
  | .item packet =>
    let place (degrees : ℚ) : Int32 :=
      if packet.command = MavCmd.doDigicamControl.id ∨
          packet.command = MavCmd.doDigicamConfigure.id then toInt32 degrees
      else toInt32 (degrees * 10000000)
    ⟨packet.param1, packet.param2, packet.param3, packet.param4, place packet.x, place packet.y,
      packet.z, packet.seq, packet.command, packet.frame, packet.current, packet.autocontinue⟩

namespace Download

variable {board : Board}

end Download

end Urus.GcsMavlink
