import TbManager.HashIteration
import TbManager.Records

/-!
# Balance plans

The planner of the compressor: accounts are grouped by ledger, two genesis
accounts are added per ledger, and every account gets at most two synthetic
transfers that rebuild its posted balances. No value is a panic: an overflow
check of the debug build, or a ledger without genesis ids.
-/

namespace TbManager

structure AccountGroup where
  ledger : U32
  accounts : List Account
  genesisCreditId : U128
  genesisDebitId : U128
  deriving DecidableEq, Repr

structure SyntheticTransfer where
  id : U128
  debitAccountId : U128
  creditAccountId : U128
  amount : U128
  ledger : U32
  code : U16
  timestamp : U64
  deriving DecidableEq, Repr

structure BalancePlan where
  genesisAccounts : List Account
  regularAccounts : List Account
  syntheticTransfers : List SyntheticTransfer
  windowedTransfers : List Transfer
  deriving DecidableEq, Repr

/-- The debit counterparty of the credit-side transfers of a ledger,
`u128::MAX - u128::from(ledger) * 2`. The operations cannot overflow. -/
def genesisCreditId (ledger : U32) : U128 := BitVec.allOnes 128 - ledger.setWidth 128 * 2

/-- The credit counterparty of the debit-side transfers of a ledger. -/
def genesisDebitId (ledger : U32) : U128 := BitVec.allOnes 128 - ledger.setWidth 128 * 2 - 1

namespace BalancePlan

def groupOf (ledger : U32) (accounts : List Account) : AccountGroup where
  ledger := ledger
  accounts := accounts
  genesisCreditId := genesisCreditId ledger
  genesisDebitId := genesisDebitId ledger

/-- `groups_map` of the planner: the accounts of each ledger, in list order. -/
def groupsMap (accounts : List Account) : HashMap U32 (List Account) :=
  HashMap.pushAll Account.ledger ∅ accounts

def groups (ord : IterOrder U32 (List Account)) (accounts : List Account) : List AccountGroup :=
  ((HashMap.iter (groupsMap accounts) ord).map fun e => groupOf e.1 e.2).insertionSort
    fun g h => g.ledger ≤ h.ledger

def genesisAccount (id : U128) (ledger : U32) (timestamp : U64) : Account where
  id := id
  debitsPending := 0
  debitsPosted := 0
  creditsPending := 0
  creditsPosted := 0
  userData128 := 0
  userData64 := 0
  userData32 := 0
  reserved := 0
  ledger := ledger
  code := 1
  flags := ⟨0⟩
  timestamp := timestamp

/-- Two genesis accounts for the group at index `i`, with timestamps `2 i + 1`
and `2 i + 2`. There are at most `2 ^ 32` groups, so these fit. -/
def genesisPair (i : ℕ) (g : AccountGroup) : List Account :=
  let baseTs := BitVec.ofNat 64 i * 2 + 1
  [genesisAccount g.genesisCreditId g.ledger baseTs,
    genesisAccount g.genesisDebitId g.ledger (baseTs + 1)]

def genesisAccountsOf (gs : List AccountGroup) : List Account :=
  gs.zipIdx.flatMap fun gi => genesisPair gi.2 gi.1

/-- A timestamp that is not greater than the previous one becomes its successor. -/
def bump (prof : Profile) (prevTs ts : U64) : Option U64 :=
  if ts ≤ prevTs then prof.add prevTs 1 else some ts

def bumpTimestamps (prof : Profile) : U64 → List Account → Option (List Account)
  | _, [] => some []
  | prevTs, acc :: accs => do
    let ts ← bump prof prevTs acc.timestamp
    let rest ← bumpTimestamps prof ts accs
    some ({ acc with timestamp := ts } :: rest)

def hasBalance (a : Account) : Bool := 0 < a.creditsPosted || 0 < a.debitsPosted

def maxTimestamp (accounts : List Account) : Option U64 :=
  accounts.foldl (fun m a => some (m.elim a.timestamp fun t =>
    if t ≤ a.timestamp then a.timestamp else t)) none

def transferTsFloor (windowedMode : Bool) (genesisMaxTs : U64) (regular : List Account) : U64 :=
  if windowedMode then (maxTimestamp (regular.filter hasBalance)).getD genesisMaxTs
  else (regular.getLast?.map Account.timestamp).getD genesisMaxTs

structure Emission where
  transfers : List SyntheticTransfer
  transferIdCounter : U128
  transferTs : U64
  deriving DecidableEq, Repr

def Emission.push (prof : Profile) (e : Emission) (debitId creditId amount : U128) (ledger : U32) :
    Option Emission := do
  let ts ← prof.add e.transferTs 1
  let counter ← prof.add e.transferIdCounter 1
  some
    { transfers := e.transfers ++
        [{ id := e.transferIdCounter, debitAccountId := debitId, creditAccountId := creditId,
           amount := amount, ledger := ledger, code := 999, timestamp := ts }]
      transferIdCounter := counter
      transferTs := ts }

/-- The guard on both sides of an account: a zero balance needs no transfer. -/
def Emission.pushPositive (prof : Profile) (e : Emission) (debitId creditId amount : U128)
    (ledger : U32) : Option Emission :=
  if 0 < amount then e.push prof debitId creditId amount ledger else some e

/-- Credit side first, so that `debits_must_not_exceed_credits` holds. -/
def emitAccount (prof : Profile) (genesisByLedger : HashMap U32 (U128 × U128)) (e : Emission)
    (acc : Account) : Option Emission := do
  let ids ← genesisByLedger.lookup acc.ledger
  let e ← e.pushPositive prof ids.1 acc.id acc.creditsPosted acc.ledger
  e.pushPositive prof acc.id ids.2 acc.debitsPosted acc.ledger

def genesisByLedger (gs : List AccountGroup) : HashMap U32 (U128 × U128) :=
  HashMap.insertAll AccountGroup.ledger (fun g => (g.genesisCreditId, g.genesisDebitId)) ∅ gs

def buildSnapshotImpl (prof : Profile) (ord : IterOrder U32 (List Account))
    (accounts : List Account) (windowedMode : Bool) : Option BalancePlan := do
  let gs := groups ord accounts
  let genesisAccounts := genesisAccountsOf gs
  let genesisMaxTs := BitVec.ofNat 64 genesisAccounts.length
  let sorted := (gs.flatMap AccountGroup.accounts).insertionSort
    fun a b => a.timestamp ≤ b.timestamp
  let regularAccounts ← bumpTimestamps prof genesisMaxTs sorted
  let floor := transferTsFloor windowedMode genesisMaxTs regularAccounts
  let e ← regularAccounts.foldlM (emitAccount prof (genesisByLedger gs)) ⟨[], 1, floor⟩
  some
    { genesisAccounts := genesisAccounts
      regularAccounts := regularAccounts
      syntheticTransfers := e.transfers
      windowedTransfers := [] }

def build (prof : Profile) (ord : IterOrder U32 (List Account)) (accounts : List Account) :
    Option BalancePlan :=
  buildSnapshotImpl prof ord accounts false

/-! ## Time-window plans -/

def addDelta (prof : Profile) (delta : HashMap U128 U128) (id amount : U128) :
    Option (HashMap U128 U128) := do
  let sum ← prof.add ((delta.lookup id).getD 0) amount
  some (delta.insert id sum)

def addWindowed (prof : Profile) (d : HashMap U128 U128 × HashMap U128 U128) (t : Transfer) :
    Option (HashMap U128 U128 × HashMap U128 U128) := do
  let debit ← addDelta prof d.1 t.debitAccountId t.amount
  let credit ← addDelta prof d.2 t.creditAccountId t.amount
  some (debit, credit)

def windowDeltas (prof : Profile) (windowed : List Transfer) :
    Option (HashMap U128 U128 × HashMap U128 U128) :=
  windowed.foldlM (addWindowed prof) (∅, ∅)

def adjustAccount (debitDelta creditDelta : HashMap U128 U128) (cutoffTs : U64) (a : Account) :
    Account :=
  if cutoffTs ≤ a.timestamp then { a with debitsPosted := 0, creditsPosted := 0 }
  else
    { a with
      debitsPosted := saturatingSub a.debitsPosted ((debitDelta.lookup a.id).getD 0)
      creditsPosted := saturatingSub a.creditsPosted ((creditDelta.lookup a.id).getD 0) }

def buildWindowed (prof : Profile) (ord : IterOrder U32 (List Account)) (accounts : List Account)
    (windowed : List Transfer) (cutoffTs : U64) : Option BalancePlan := do
  let deltas ← windowDeltas prof windowed
  let plan ← buildSnapshotImpl prof ord
    (accounts.map (adjustAccount deltas.1 deltas.2 cutoffTs)) true
  some { plan with windowedTransfers := windowed }

def totalTransfers (plan : BalancePlan) : ℕ := plan.syntheticTransfers.length

end BalancePlan

end TbManager
