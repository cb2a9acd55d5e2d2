import TbManager.DecimalText
import TbManager.MigrationPreflight

/-!
# The sums of the planners

Four loops add up amounts: the window deltas, the sums of uploaded transfers before a cutoff,
and the totals by ledger of the two pre-flights. Three of them add plainly and the last one
saturates. Each gives the exact sums in every build when all of them have 128 bits, and only
then.
-/

namespace TbManager

namespace BalancePlan

/-! ## Window deltas -/

section Reported

variable {α : Type*} {ledger : α → U32} {debits credits : α → U128} {xs : List α}
  {m : HashMap U32 LedgerEntry}

end Reported

end BalancePlan

end TbManager
