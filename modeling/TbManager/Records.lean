import TbManager.MachineInt

/-!
# Account and transfer records

The records decoded from a data file, with their 16-bit flag fields.
-/

namespace TbManager

/-- Bit-flags stored on an account. -/
structure AccountFlags where
  raw : U16
  deriving DecidableEq, Repr, Inhabited

namespace AccountFlags

def linked (f : AccountFlags) : Bool := f.raw &&& (1#16 <<< 0) != 0

/-- Debits (pending + posted) must not exceed credits posted. -/
def debitsMustNotExceedCredits (f : AccountFlags) : Bool := f.raw &&& (1#16 <<< 1) != 0

/-- Credits (pending + posted) must not exceed debits posted. -/
def creditsMustNotExceedDebits (f : AccountFlags) : Bool := f.raw &&& (1#16 <<< 2) != 0

def history (f : AccountFlags) : Bool := f.raw &&& (1#16 <<< 3) != 0

def imported (f : AccountFlags) : Bool := f.raw &&& (1#16 <<< 4) != 0

def closed (f : AccountFlags) : Bool := f.raw &&& (1#16 <<< 5) != 0

end AccountFlags

structure Account where
  id : U128
  debitsPending : U128
  debitsPosted : U128
  creditsPending : U128
  creditsPosted : U128
  userData128 : U128
  userData64 : U64
  userData32 : U32
  reserved : U32
  ledger : U32
  code : U16
  flags : AccountFlags
  timestamp : U64
  deriving DecidableEq, Repr, Inhabited

/-- `is_padding`: an empty slot or the sentinel key of the LSM. -/
def Account.isPadding (a : Account) : Bool := a.id = 0 || a.id = BitVec.allOnes 128

/-- An account that holds nothing but posted balances. -/
def Account.holding (id : U128) (ledger : U32) (debits credits : U128) (timestamp : U64) :
    Account :=
  { (default : Account) with
    id := id
    ledger := ledger
    debitsPosted := debits
    creditsPosted := credits
    timestamp := timestamp }

/-- Bit-flags stored on a transfer. -/
structure TransferFlags where
  raw : U16
  deriving DecidableEq, Repr, Inhabited

namespace TransferFlags

def linked (f : TransferFlags) : Bool := f.raw &&& (1#16 <<< 0) != 0

/-- The transfer reserves funds but does not post them. -/
def pending (f : TransferFlags) : Bool := f.raw &&& (1#16 <<< 1) != 0

def postPendingTransfer (f : TransferFlags) : Bool := f.raw &&& (1#16 <<< 2) != 0

def voidPendingTransfer (f : TransferFlags) : Bool := f.raw &&& (1#16 <<< 3) != 0

def balancingDebit (f : TransferFlags) : Bool := f.raw &&& (1#16 <<< 4) != 0

def balancingCredit (f : TransferFlags) : Bool := f.raw &&& (1#16 <<< 5) != 0

def closingDebit (f : TransferFlags) : Bool := f.raw &&& (1#16 <<< 6) != 0

def closingCredit (f : TransferFlags) : Bool := f.raw &&& (1#16 <<< 7) != 0

def imported (f : TransferFlags) : Bool := f.raw &&& (1#16 <<< 8) != 0

end TransferFlags

structure Transfer where
  id : U128
  debitAccountId : U128
  creditAccountId : U128
  amount : U128
  pendingId : U128
  userData128 : U128
  userData64 : U64
  userData32 : U32
  timeout : U32
  ledger : U32
  code : U16
  flags : TransferFlags
  timestamp : U64
  deriving DecidableEq, Repr, Inhabited

def Transfer.isPadding (t : Transfer) : Bool := t.id = 0 || t.id = BitVec.allOnes 128

/-- A transfer between two accounts with nothing optional set but its flags. -/
def Transfer.moving (id debitId creditId amount : U128) (ledger : U32) (flags : U16)
    (timestamp : U64) : Transfer :=
  { (default : Transfer) with
    id := id
    debitAccountId := debitId
    creditAccountId := creditId
    amount := amount
    ledger := ledger
    flags := ⟨flags⟩
    timestamp := timestamp }

end TbManager
