import TbManager.RecordBytes

/-!
# The replies to a client

The client sends its events in a packet and gets back a status and bytes. A create
request is answered with a code for each event that was not created, a lookup with
the records that were found; the callers bring both together with their events.
-/

namespace TbManager

inductive CreateAccountResult where
  | ok
  | linkedEventFailed
  | linkedEventChainOpen
  | importedEventExpected
  | importedEventNotExpected
  | timestampMustBeZero
  | importedEventTimestampOutOfRange
  | importedEventTimestampMustNotAdvance
  | reservedField
  | reservedFlag
  | idMustNotBeZero
  | idMustNotBeIntMax
  | existsWithDifferentFlags
  | existsWithDifferentUserData128
  | existsWithDifferentUserData64
  | existsWithDifferentUserData32
  | existsWithDifferentLedger
  | existsWithDifferentCode
  | exists_
  | flagsAreMutuallyExclusive
  | debitsPendingMustBeZero
  | debitsPostedMustBeZero
  | creditsPendingMustBeZero
  | creditsPostedMustBeZero
  | ledgerMustNotBeZero
  | codeMustNotBeZero
  | importedEventTimestampMustNotRegress
  deriving DecidableEq, Repr

namespace CreateAccountResult

def ofU32 (code : U32) : Option CreateAccountResult :=
  match code.toNat with
  | 0 => some ok
  | 1 => some linkedEventFailed
  | 2 => some linkedEventChainOpen
  | 22 => some importedEventExpected
  | 23 => some importedEventNotExpected
  | 3 => some timestampMustBeZero
  | 24 => some importedEventTimestampOutOfRange
  | 25 => some importedEventTimestampMustNotAdvance
  | 4 => some reservedField
  | 5 => some reservedFlag
  | 6 => some idMustNotBeZero
  | 7 => some idMustNotBeIntMax
  | 15 => some existsWithDifferentFlags
  | 16 => some existsWithDifferentUserData128
  | 17 => some existsWithDifferentUserData64
  | 18 => some existsWithDifferentUserData32
  | 19 => some existsWithDifferentLedger
  | 20 => some existsWithDifferentCode
  | 21 => some exists_
  | 8 => some flagsAreMutuallyExclusive
  | 9 => some debitsPendingMustBeZero
  | 10 => some debitsPostedMustBeZero
  | 11 => some creditsPendingMustBeZero
  | 12 => some creditsPostedMustBeZero
  | 13 => some ledgerMustNotBeZero
  | 14 => some codeMustNotBeZero
  | 26 => some importedEventTimestampMustNotRegress
  | _ => none

def toU32 : CreateAccountResult → U32
  | ok => 0
  | linkedEventFailed => 1
  | linkedEventChainOpen => 2
  | importedEventExpected => 22
  | importedEventNotExpected => 23
  | timestampMustBeZero => 3
  | importedEventTimestampOutOfRange => 24
  | importedEventTimestampMustNotAdvance => 25
  | reservedField => 4
  | reservedFlag => 5
  | idMustNotBeZero => 6
  | idMustNotBeIntMax => 7
  | existsWithDifferentFlags => 15
  | existsWithDifferentUserData128 => 16
  | existsWithDifferentUserData64 => 17
  | existsWithDifferentUserData32 => 18
  | existsWithDifferentLedger => 19
  | existsWithDifferentCode => 20
  | exists_ => 21
  | flagsAreMutuallyExclusive => 8
  | debitsPendingMustBeZero => 9
  | debitsPostedMustBeZero => 10
  | creditsPendingMustBeZero => 11
  | creditsPostedMustBeZero => 12
  | ledgerMustNotBeZero => 13
  | codeMustNotBeZero => 14
  | importedEventTimestampMustNotRegress => 26

end CreateAccountResult

inductive CreateTransferResult where
  | ok
  | linkedEventFailed
  | linkedEventChainOpen
  | importedEventExpected
  | importedEventNotExpected
  | timestampMustBeZero
  | importedEventTimestampOutOfRange
  | importedEventTimestampMustNotAdvance
  | reservedFlag
  | idMustNotBeZero
  | idMustNotBeIntMax
  | existsWithDifferentFlags
  | existsWithDifferentPendingId
  | existsWithDifferentTimeout
  | existsWithDifferentDebitAccountId
  | existsWithDifferentCreditAccountId
  | existsWithDifferentAmount
  | existsWithDifferentUserData128
  | existsWithDifferentUserData64
  | existsWithDifferentUserData32
  | existsWithDifferentLedger
  | existsWithDifferentCode
  | exists_
  | idAlreadyFailed
  | flagsAreMutuallyExclusive
  | debitAccountIdMustNotBeZero
  | debitAccountIdMustNotBeIntMax
  | creditAccountIdMustNotBeZero
  | creditAccountIdMustNotBeIntMax
  | accountsMustBeDifferent
  | pendingIdMustBeZero
  | pendingIdMustNotBeZero
  | pendingIdMustNotBeIntMax
  | pendingIdMustBeDifferent
  | timeoutReservedForPendingTransfer
  | closingTransferMustBePending
  | ledgerMustNotBeZero
  | codeMustNotBeZero
  | debitAccountNotFound
  | creditAccountNotFound
  | accountsMustHaveTheSameLedger
  | transferMustHaveTheSameLedgerAsAccounts
  | pendingTransferNotFound
  | pendingTransferNotPending
  | pendingTransferHasDifferentDebitAccountId
  | pendingTransferHasDifferentCreditAccountId
  | pendingTransferHasDifferentLedger
  | pendingTransferHasDifferentCode
  | exceedsPendingTransferAmount
  | pendingTransferHasDifferentAmount
  | pendingTransferAlreadyPosted
  | pendingTransferAlreadyVoided
  | pendingTransferExpired
  | importedEventTimestampMustNotRegress
  | importedEventTimestampMustPostdateDebitAccount
  | importedEventTimestampMustPostdateCreditAccount
  | importedEventTimeoutMustBeZero
  | debitAccountAlreadyClosed
  | creditAccountAlreadyClosed
  | overflowsDebitsPending
  | overflowsCreditsPending
  | overflowsDebitsPosted
  | overflowsCreditsPosted
  | overflowsDebits
  | overflowsCredits
  | overflowsTimeout
  | exceedsCredits
  | exceedsDebits
  deriving DecidableEq, Repr

namespace CreateTransferResult

def ofU32 (code : U32) : Option CreateTransferResult :=
  match code.toNat with
  | 0 => some ok
  | 1 => some linkedEventFailed
  | 2 => some linkedEventChainOpen
  | 56 => some importedEventExpected
  | 57 => some importedEventNotExpected
  | 3 => some timestampMustBeZero
  | 58 => some importedEventTimestampOutOfRange
  | 59 => some importedEventTimestampMustNotAdvance
  | 4 => some reservedFlag
  | 5 => some idMustNotBeZero
  | 6 => some idMustNotBeIntMax
  | 36 => some existsWithDifferentFlags
  | 40 => some existsWithDifferentPendingId
  | 44 => some existsWithDifferentTimeout
  | 37 => some existsWithDifferentDebitAccountId
  | 38 => some existsWithDifferentCreditAccountId
  | 39 => some existsWithDifferentAmount
  | 41 => some existsWithDifferentUserData128
  | 42 => some existsWithDifferentUserData64
  | 43 => some existsWithDifferentUserData32
  | 67 => some existsWithDifferentLedger
  | 45 => some existsWithDifferentCode
  | 46 => some exists_
  | 68 => some idAlreadyFailed
  | 7 => some flagsAreMutuallyExclusive
  | 8 => some debitAccountIdMustNotBeZero
  | 9 => some debitAccountIdMustNotBeIntMax
  | 10 => some creditAccountIdMustNotBeZero
  | 11 => some creditAccountIdMustNotBeIntMax
  | 12 => some accountsMustBeDifferent
  | 13 => some pendingIdMustBeZero
  | 14 => some pendingIdMustNotBeZero
  | 15 => some pendingIdMustNotBeIntMax
  | 16 => some pendingIdMustBeDifferent
  | 17 => some timeoutReservedForPendingTransfer
  | 64 => some closingTransferMustBePending
  | 19 => some ledgerMustNotBeZero
  | 20 => some codeMustNotBeZero
  | 21 => some debitAccountNotFound
  | 22 => some creditAccountNotFound
  | 23 => some accountsMustHaveTheSameLedger
  | 24 => some transferMustHaveTheSameLedgerAsAccounts
  | 25 => some pendingTransferNotFound
  | 26 => some pendingTransferNotPending
  | 27 => some pendingTransferHasDifferentDebitAccountId
  | 28 => some pendingTransferHasDifferentCreditAccountId
  | 29 => some pendingTransferHasDifferentLedger
  | 30 => some pendingTransferHasDifferentCode
  | 31 => some exceedsPendingTransferAmount
  | 32 => some pendingTransferHasDifferentAmount
  | 33 => some pendingTransferAlreadyPosted
  | 34 => some pendingTransferAlreadyVoided
  | 35 => some pendingTransferExpired
  | 60 => some importedEventTimestampMustNotRegress
  | 61 => some importedEventTimestampMustPostdateDebitAccount
  | 62 => some importedEventTimestampMustPostdateCreditAccount
  | 63 => some importedEventTimeoutMustBeZero
  | 65 => some debitAccountAlreadyClosed
  | 66 => some creditAccountAlreadyClosed
  | 47 => some overflowsDebitsPending
  | 48 => some overflowsCreditsPending
  | 49 => some overflowsDebitsPosted
  | 50 => some overflowsCreditsPosted
  | 51 => some overflowsDebits
  | 52 => some overflowsCredits
  | 53 => some overflowsTimeout
  | 54 => some exceedsCredits
  | 55 => some exceedsDebits
  | _ => none

def toU32 : CreateTransferResult → U32
  | ok => 0
  | linkedEventFailed => 1
  | linkedEventChainOpen => 2
  | importedEventExpected => 56
  | importedEventNotExpected => 57
  | timestampMustBeZero => 3
  | importedEventTimestampOutOfRange => 58
  | importedEventTimestampMustNotAdvance => 59
  | reservedFlag => 4
  | idMustNotBeZero => 5
  | idMustNotBeIntMax => 6
  | existsWithDifferentFlags => 36
  | existsWithDifferentPendingId => 40
  | existsWithDifferentTimeout => 44
  | existsWithDifferentDebitAccountId => 37
  | existsWithDifferentCreditAccountId => 38
  | existsWithDifferentAmount => 39
  | existsWithDifferentUserData128 => 41
  | existsWithDifferentUserData64 => 42
  | existsWithDifferentUserData32 => 43
  | existsWithDifferentLedger => 67
  | existsWithDifferentCode => 45
  | exists_ => 46
  | idAlreadyFailed => 68
  | flagsAreMutuallyExclusive => 7
  | debitAccountIdMustNotBeZero => 8
  | debitAccountIdMustNotBeIntMax => 9
  | creditAccountIdMustNotBeZero => 10
  | creditAccountIdMustNotBeIntMax => 11
  | accountsMustBeDifferent => 12
  | pendingIdMustBeZero => 13
  | pendingIdMustNotBeZero => 14
  | pendingIdMustNotBeIntMax => 15
  | pendingIdMustBeDifferent => 16
  | timeoutReservedForPendingTransfer => 17
  | closingTransferMustBePending => 64
  | ledgerMustNotBeZero => 19
  | codeMustNotBeZero => 20
  | debitAccountNotFound => 21
  | creditAccountNotFound => 22
  | accountsMustHaveTheSameLedger => 23
  | transferMustHaveTheSameLedgerAsAccounts => 24
  | pendingTransferNotFound => 25
  | pendingTransferNotPending => 26
  | pendingTransferHasDifferentDebitAccountId => 27
  | pendingTransferHasDifferentCreditAccountId => 28
  | pendingTransferHasDifferentLedger => 29
  | pendingTransferHasDifferentCode => 30
  | exceedsPendingTransferAmount => 31
  | pendingTransferHasDifferentAmount => 32
  | pendingTransferAlreadyPosted => 33
  | pendingTransferAlreadyVoided => 34
  | pendingTransferExpired => 35
  | importedEventTimestampMustNotRegress => 60
  | importedEventTimestampMustPostdateDebitAccount => 61
  | importedEventTimestampMustPostdateCreditAccount => 62
  | importedEventTimeoutMustBeZero => 63
  | debitAccountAlreadyClosed => 65
  | creditAccountAlreadyClosed => 66
  | overflowsDebitsPending => 47
  | overflowsCreditsPending => 48
  | overflowsDebitsPosted => 49
  | overflowsCreditsPosted => 50
  | overflowsDebits => 51
  | overflowsCredits => 52
  | overflowsTimeout => 53
  | exceedsCredits => 54
  | exceedsDebits => 55

end CreateTransferResult

/-- What fails before the cluster has processed a request. -/
inductive PacketStatus where
  | tooMuchData
  | clientEvicted
  | clientReleaseTooLow
  | clientReleaseTooHigh
  | clientShutdown
  | invalidOperation
  | invalidDataSize
  deriving DecidableEq, Repr

namespace PacketStatus

def ofU8 (code : U8) : Option PacketStatus :=
  match code.toNat with
  | 1 => some tooMuchData
  | 2 => some clientEvicted
  | 3 => some clientReleaseTooLow
  | 4 => some clientReleaseTooHigh
  | 5 => some clientShutdown
  | 6 => some invalidOperation
  | 7 => some invalidDataSize
  | _ => none

def toU8 : PacketStatus → U8
  | tooMuchData => 1
  | clientEvicted => 2
  | clientReleaseTooLow => 3
  | clientReleaseTooHigh => 4
  | clientShutdown => 5
  | invalidOperation => 6
  | invalidDataSize => 7

end PacketStatus

structure ResultCodes (ρ : Type*) where
  ok : ρ
  ofU32 : U32 → Option ρ
  toU32 : ρ → U32
  ofU32_toU32 : ∀ r, ofU32 (toU32 r) = some r

def createAccountCodes : ResultCodes CreateAccountResult where
  ok := .ok
  ofU32 := CreateAccountResult.ofU32
  toU32 := CreateAccountResult.toU32
  ofU32_toU32 r := by cases r <;> rfl

def createTransferCodes : ResultCodes CreateTransferResult where
  ok := .ok
  ofU32 := CreateTransferResult.ofU32
  toU32 := CreateTransferResult.toU32
  ofU32_toU32 r := by cases r <;> rfl

structure RecordCodec (β : Type*) where
  id : β → U128
  fromBytes : List U8 → β
  toBytes : β → List U8
  length_toBytes : ∀ b, (toBytes b).length = recordSize
  fromBytes_toBytes : ∀ b, fromBytes (toBytes b) = b

def accountBytes : RecordCodec Account where
  id := Account.id
  fromBytes := Account.fromBytes
  toBytes a := a.toSlot.1
  length_toBytes a := a.toSlot.2
  fromBytes_toBytes := Account.ofSlot_toSlot

def transferBytes : RecordCodec Transfer where
  id := Transfer.id
  fromBytes := Transfer.fromBytes
  toBytes t := t.toSlot.1
  length_toBytes t := t.toSlot.2
  fromBytes_toBytes := Transfer.ofSlot_toSlot

/-! ## A request -/

section Packet

variable {α : Type*}

/-- The bytes that a packet announces, in 32 bits. -/
def dataSize (size : ℕ) (events : List α) : U32 := BitVec.ofNat 32 (size * events.length)

def sentEvents (size : ℕ) (events : List α) : List α :=
  events.take ((dataSize size events).toNat / size)

structure CompletionMessage where
  status : U8
  result : List U8
  deriving DecidableEq, Repr

/-- The bytes of a result as values of a type of `size` bytes each. -/
def sliceOf (size : ℕ) (fromBytes : List U8 → α) (bytes : List U8) : List α :=
  (List.range (bytes.length / size)).map fun i => fromBytes ((bytes.drop (i * size)).take size)

/-- No value is a panic. -/
def handleMessage (size : ℕ) (fromBytes : List U8 → α) (msg : CompletionMessage) :
    Option (Except PacketStatus (List α)) :=
  if msg.status = 0 then some (.ok (sliceOf size fromBytes msg.result))
  else (PacketStatus.ofU8 msg.status).map .error

end Packet

structure RawResult where
  index : U32
  result : U32
  deriving DecidableEq, Repr

def RawResult.fromBytes (bytes : List U8) : RawResult := ⟨leAt 4 bytes 0, leAt 4 bytes 4⟩

def RawResult.toBytes (r : RawResult) : List U8 :=
  leBytes 4 r.index.toNat ++ leBytes 4 r.result.toNat

structure IndexedResult (ρ : Type*) where
  index : ℕ
  result : ρ
  deriving DecidableEq, Repr

section Create

variable {α ρ : Type*} (codes : ResultCodes ρ)

def indexedResult (raw : RawResult) : Option (IndexedResult ρ) :=
  (codes.ofU32 raw.result).map fun result => ⟨raw.index.toNat, result⟩

def createResults (msg : CompletionMessage) :
    Option (Except PacketStatus (List (IndexedResult ρ))) :=
  (handleMessage 8 RawResult.fromBytes msg).bind fun
    | .error e => some (.error e)
    | .ok raws => (raws.mapM (indexedResult codes)).map .ok

/-- `merge_create_accounts_results` and `merge_create_transfers_results` from the event with number
`i` on: the next result is taken where its index is the number. -/
def mergeCreateResults : ℕ → List α → List (IndexedResult ρ) → List (α × ρ)
  | _, [], _ => []
  | i, event :: events, [] => (event, codes.ok) :: mergeCreateResults (i + 1) events []
  | i, event :: events, r :: results =>
    if r.index = i then (event, r.result) :: mergeCreateResults (i + 1) events results
    else (event, codes.ok) :: mergeCreateResults (i + 1) events (r :: results)

/-! ## The answers of the cluster -/

/-- What the cluster makes of a batch: it refuses it, or has a result for each of its events. -/
structure BatchOutcome (α ρ : Type*) where
  outcome : List α → Except PacketStatus (List ρ)
  length_eq : ∀ events results, outcome events = .ok results → results.length = events.length

variable [DecidableEq ρ]

def failures : ℕ → List ρ → List (IndexedResult ρ)
  | _, [] => []
  | i, r :: results =>
    if r = codes.ok then failures (i + 1) results else ⟨i, r⟩ :: failures (i + 1) results

def rawResult (r : IndexedResult ρ) : RawResult := ⟨BitVec.ofNat 32 r.index, codes.toU32 r.result⟩

def BatchOutcome.reply (o : BatchOutcome α ρ) (events : List α) : CompletionMessage :=
  match o.outcome events with
  | .error e => ⟨e.toU8, []⟩
  | .ok results => ⟨0, ((failures codes 0 results).map (rawResult codes)).flatMap RawResult.toBytes⟩

def BatchOutcome.request (o : BatchOutcome α ρ) (size : ℕ) (events : List α) :
    Option (Except PacketStatus (List (α × ρ))) :=
  (createResults codes (o.reply codes (sentEvents size events))).map fun r =>
    r.map (mergeCreateResults codes 0 events)

end Create

section Lookup

variable {β : Type*} (records : RecordCodec β)

def lookupResults (msg : CompletionMessage) : Option (Except PacketStatus (List β)) :=
  handleMessage recordSize records.fromBytes msg

def mergeLookupResults : List U128 → List β → List (U128 × Option β)
  | [], _ => []
  | id :: ids, [] => (id, none) :: mergeLookupResults ids []
  | id :: ids, b :: results =>
    if records.id b = id then (id, some b) :: mergeLookupResults ids results
    else (id, none) :: mergeLookupResults ids (b :: results)

/-- The records that the cluster has, and the lookups that it refuses. -/
structure LookupOutcome (records : RecordCodec β) where
  find : U128 → Option β
  id_find : ∀ i b, find i = some b → records.id b = i
  refused : List U128 → Option PacketStatus

/-- What the cluster has for the ids, or the status of a refused lookup. -/
def LookupOutcome.answer (o : LookupOutcome records) (ids : List U128) :
    Except PacketStatus (List (U128 × Option β)) :=
  match o.refused ids with
  | some e => .error e
  | none => .ok (ids.map fun id => (id, o.find id))

def LookupOutcome.reply (o : LookupOutcome records) (ids : List U128) : CompletionMessage :=
  match o.refused ids with
  | some e => ⟨e.toU8, []⟩
  | none => ⟨0, (ids.filterMap o.find).flatMap records.toBytes⟩

def LookupOutcome.request (o : LookupOutcome records) (ids : List U128) :
    Option (Except PacketStatus (List (U128 × Option β))) :=
  (lookupResults records (o.reply records (sentEvents 16 ids))).map fun r =>
    r.map (mergeLookupResults records ids)

end Lookup

/-! ## Bytes -/

section Bytes

variable {α : Type*} {size : ℕ} {fromBytes : List U8 → α} {toBytes : α → List U8}

theorem sliceOf_flatMap (hsize : 0 < size) (hlength : ∀ a, (toBytes a).length = size)
    (hinv : ∀ a, fromBytes (toBytes a) = a) (xs : List α) :
    sliceOf size fromBytes (xs.flatMap toBytes) = xs := by
  induction xs with
  | nil =>
      rw [sliceOf, List.flatMap_nil, List.length_nil, Nat.zero_div, List.range_zero, List.map_nil]
  | cons a xs ih =>
      have hcount : (size + (xs.flatMap toBytes).length) / size =
          (xs.flatMap toBytes).length / size + 1 := Nat.add_div_left _ hsize
      have hfirst : ((toBytes a ++ xs.flatMap toBytes).drop (0 * size)).take size = toBytes a := by
        rw [Nat.zero_mul, List.drop_zero, List.take_left' (hlength a)]
      have hrest : (fun i => fromBytes
            (((toBytes a ++ xs.flatMap toBytes).drop ((i + 1) * size)).take size)) =
          fun i => fromBytes (((xs.flatMap toBytes).drop (i * size)).take size) := by
        funext i
        rw [Nat.succ_mul, Nat.add_comm, ← List.drop_drop, List.drop_left' (hlength a)]
      rw [sliceOf, List.flatMap_cons, List.length_append, hlength, hcount, List.range_succ_eq_map,
        List.map_cons, List.map_map, hfirst, hinv]
      congr 1
      exact (congrArg (fun f => List.map f _) hrest).trans ih

theorem handleMessage_error (e : PacketStatus) (bytes : List U8) :
    handleMessage size fromBytes ⟨e.toU8, bytes⟩ = some (.error e) := by
  cases e <;> rfl

theorem RawResult.length_toBytes (r : RawResult) : r.toBytes.length = 8 := by
  rw [toBytes, List.length_append, length_leBytes, length_leBytes]

theorem RawResult.fromBytes_toBytes (r : RawResult) : RawResult.fromBytes r.toBytes = r := by
  have hindex : (leBytes 4 r.index.toNat ++ leBytes 4 r.result.toNat).take 4 =
      leBytes 4 r.index.toNat := List.take_left' (length_leBytes _ _)
  have hresult : ((leBytes 4 r.index.toNat ++ leBytes 4 r.result.toNat).drop 4).take 4 =
      leBytes 4 r.result.toNat := by
    rw [List.drop_left' (length_leBytes _ _), List.take_of_length_le (length_leBytes _ _).le]
  have hread (x : U32) : BitVec.ofNat (8 * 4) (leNat (leBytes 4 x.toNat)) = x := by
    rw [leNat_leBytes]
    apply BitVec.eq_of_toNat_eq
    have hx : x.toNat < 256 ^ 4 := x.isLt
    rw [BitVec.toNat_ofNat, Nat.mod_eq_of_lt hx, Nat.mod_eq_of_lt x.isLt]
  rw [RawResult.fromBytes, toBytes, leAt, leAt, List.drop_zero, hindex, hresult, hread, hread]

end Bytes

/-! ## Create requests -/

section Create

variable {α ρ : Type*} {codes : ResultCodes ρ}

/-- An event whose number no result has was created. -/
theorem mergeCreateResults_ok {i : ℕ} {results : List (IndexedResult ρ)}
    (h : ∀ r ∈ results, i < r.index) (event : α) (events : List α) :
    mergeCreateResults codes i (event :: events) results =
      (event, codes.ok) :: mergeCreateResults codes (i + 1) events results := by
  cases results with
  | nil => rfl
  | cons r results =>
      have hr := h r List.mem_cons_self
      rw [mergeCreateResults, if_neg (by omega)]

theorem indexedResult_rawResult {r : IndexedResult ρ} (h : r.index < 2 ^ 32) :
    indexedResult codes (rawResult codes r) = some r := by
  rw [indexedResult, rawResult, codes.ofU32_toU32, Option.map_some, BitVec.toNat_ofNat,
    Nat.mod_eq_of_lt h]

theorem mapM_indexedResult {results : List (IndexedResult ρ)}
    (h : ∀ r ∈ results, r.index < 2 ^ 32) :
    (results.map (rawResult codes)).mapM (indexedResult codes) = some results := by
  induction results with
  | nil => rfl
  | cons r results ih =>
      rw [List.map_cons, List.mapM_cons, indexedResult_rawResult (h r List.mem_cons_self),
        ih fun r' hr' => h r' (List.mem_cons_of_mem r hr')]
      rfl

def lengthOutcome (n : ℕ) (r r' : ρ) : BatchOutcome α ρ where
  outcome events := .ok (List.replicate events.length (if events.length = n then r else r'))
  length_eq events results h := by
    cases h
    rw [List.length_replicate]

theorem lengthOutcome_of_eq (events : List α) (r r' : ρ) :
    (lengthOutcome events.length r r').outcome events = .ok (List.replicate events.length r) :=
  congrArg (fun r => Except.ok (List.replicate events.length r)) (if_pos rfl)

theorem lengthOutcome_of_ne {n : ℕ} {events : List α} (r r' : ρ) (h : events.length ≠ n) :
    (lengthOutcome n r r').outcome events = .ok (List.replicate events.length r') :=
  congrArg (fun r => Except.ok (List.replicate events.length r)) (if_neg h)

variable [DecidableEq ρ]

theorem le_index_of_mem_failures {i : ℕ} {results : List ρ} {r : IndexedResult ρ}
    (h : r ∈ failures codes i results) : i ≤ r.index ∧ r.index < i + results.length := by
  induction results generalizing i with
  | nil => cases h
  | cons r' results ih =>
      rw [failures] at h
      rw [List.length_cons]
      split_ifs at h with hok
      · have := ih h
        omega
      · rcases List.mem_cons.1 h with rfl | hmem
        · exact ⟨le_rfl, by dsimp only; omega⟩
        · have := ih hmem
          omega

theorem mergeCreateResults_zip (codes : ResultCodes ρ) (i : ℕ) {events : List α} {results : List ρ}
    (h : results.length = events.length) :
    mergeCreateResults codes i events (failures codes i results) = events.zip results := by
  induction events generalizing i results with
  | nil => rw [mergeCreateResults, List.zip_nil_left]
  | cons event events ih =>
      obtain ⟨r, results, rfl⟩ := List.exists_cons_of_length_eq_add_one h
      rw [List.length_cons, List.length_cons, Nat.add_right_cancel_iff] at h
      rw [failures, List.zip_cons_cons, ← ih (i + 1) h]
      split_ifs with hok
      · rw [hok, mergeCreateResults_ok fun r hr => (le_index_of_mem_failures hr).1]
      · rw [mergeCreateResults, if_pos rfl]

theorem failures_replicate_ok (i n : ℕ) : failures codes i (List.replicate n codes.ok) = [] := by
  induction n generalizing i with
  | zero => rfl
  | succ n ih => rw [List.replicate_succ, failures, if_pos rfl, ih]

/-- What the caller gets for the events that the packet holds. -/
theorem createResults_reply (o : BatchOutcome α ρ) {sent : List α} (h : sent.length ≤ 2 ^ 32) :
    createResults codes (o.reply codes sent) = some ((o.outcome sent).map (failures codes 0)) := by
  rw [BatchOutcome.reply]
  cases houtcome : o.outcome sent with
  | error e =>
      rw [createResults, handleMessage_error]
      rfl
  | ok results =>
      have hindex : ∀ r ∈ failures codes 0 results, r.index < 2 ^ 32 := fun r hr => by
        have := (le_index_of_mem_failures hr).2
        have := o.length_eq sent results houtcome
        omega
      rw [createResults, handleMessage, if_pos rfl,
        sliceOf_flatMap (by decide) RawResult.length_toBytes RawResult.fromBytes_toBytes,
        Option.bind_some]
      dsimp only
      rw [mapM_indexedResult hindex]
      rfl

/-- The packet holds all events exactly where their bytes fit its size. -/
theorem sentEvents_eq_iff {size : ℕ} (hsize : 0 < size) (events : List α) :
    sentEvents size events = events ↔ size * events.length < 2 ^ 32 := by
  have hdata : (dataSize size events).toNat = size * events.length % 2 ^ 32 :=
    BitVec.toNat_ofNat _ _
  rw [sentEvents, List.take_eq_self_iff, hdata, Nat.le_div_iff_mul_le hsize, Nat.mul_comm]
  constructor
  · intro h
    exact h.trans_lt (Nat.mod_lt _ (by decide))
  · intro h
    exact (Nat.mod_eq_of_lt h).ge

theorem length_sentEvents_le (size : ℕ) (events : List α) :
    (sentEvents size events).length ≤ 2 ^ 32 := by
  have hlt : (dataSize size events).toNat < 2 ^ 32 := (dataSize size events).isLt
  have := Nat.div_le_self (dataSize size events).toNat size
  rw [sentEvents, List.length_take]
  omega

/-- Every caller sees what the cluster made of its events exactly where their bytes fit a packet. -/
theorem request_faithful_iff {r : ρ} (hr : r ≠ codes.ok) {size : ℕ} (hsize : 0 < size)
    (events : List α) :
    (∀ o : BatchOutcome α ρ,
      o.request codes size events = some ((o.outcome events).map events.zip)) ↔
      size * events.length < 2 ^ 32 := by
  rw [← sentEvents_eq_iff hsize events]
  constructor
  · intro h
    by_contra hcut
    have hshort : (sentEvents size events).length ≠ events.length := by
      intro hlength
      exact hcut (List.take_eq_self_iff _ |>.2 (by
        rw [sentEvents, List.length_take] at hlength
        omega))
    -- the cluster refuses every event of a whole batch and none of a shorter one
    have hall := h (lengthOutcome events.length r codes.ok)
    rw [BatchOutcome.request, createResults_reply _ (length_sentEvents_le size events),
      lengthOutcome_of_ne _ _ hshort, lengthOutcome_of_eq] at hall
    have hmerged := mergeCreateResults_zip codes 0
      (List.length_replicate : (List.replicate events.length codes.ok).length = _)
    rw [failures_replicate_ok] at hmerged
    have hzip : events.zip (List.replicate events.length codes.ok) =
        events.zip (List.replicate events.length r) := by
      rw [← hmerged]
      change some (Except.ok (mergeCreateResults codes 0 events
        (failures codes 0 (List.replicate _ codes.ok)))) = some (Except.ok _) at hall
      rw [failures_replicate_ok, Option.some.injEq, Except.ok.injEq] at hall
      exact hall
    obtain ⟨event, rest, rfl⟩ : ∃ event rest, events = event :: rest :=
      List.exists_cons_of_ne_nil fun hnil => hshort (by rw [hnil, sentEvents, List.take_nil])
    rw [List.length_cons, List.replicate_succ, List.replicate_succ, List.zip_cons_cons,
      List.zip_cons_cons, List.cons.injEq, Prod.mk.injEq] at hzip
    exact hr hzip.1.2.symm
  · intro hall o
    rw [BatchOutcome.request, hall, createResults_reply o (hall ▸ length_sentEvents_le size events),
      Option.map_some]
    cases houtcome : o.outcome events with
    | error e => rfl
    | ok results =>
        have hmerged := mergeCreateResults_zip codes 0 (o.length_eq events results houtcome)
        change some (Except.ok _) = some (Except.ok _)
        rw [hmerged]

end Create

/-! ## Lookups -/

section Lookup

variable {β : Type*} {records : RecordCodec β}

theorem mergeLookupResults_map (o : LookupOutcome records) (ids : List U128) :
    mergeLookupResults records ids (ids.filterMap o.find) =
      ids.map fun id => (id, o.find id) := by
  induction ids with
  | nil => rw [mergeLookupResults, List.map_nil]
  | cons id ids ih =>
      rw [List.map_cons, ← ih]
      cases hfind : o.find id with
      | some b =>
          rw [List.filterMap_cons_some hfind, mergeLookupResults, if_pos (o.id_find id b hfind)]
      | none =>
          rw [List.filterMap_cons_none hfind]
          cases hrest : ids.filterMap o.find with
          | nil => rfl
          | cons b rest =>
              -- the next record is one that was found, and this id was not
              have hmem : b ∈ ids.filterMap o.find := by
                rw [hrest]
                exact List.mem_cons_self
              obtain ⟨i, _, hi⟩ := List.mem_filterMap.1 hmem
              have hne : records.id b ≠ id := by
                intro hid
                rw [← hid, o.id_find i b hi, hi] at hfind
                cases hfind
              rw [mergeLookupResults, if_neg hne]

theorem countP_mergeLookupResults_le (records : RecordCodec β) (ids : List U128)
    (results : List β) :
    (mergeLookupResults records ids results).countP (fun p => p.2.isSome) ≤ results.length := by
  induction ids generalizing results with
  | nil => exact Nat.zero_le _
  | cons id ids ih =>
      cases results with
      | nil =>
          have := ih []
          rw [mergeLookupResults, List.countP_cons]
          exact this
      | cons b results =>
          rw [mergeLookupResults, List.length_cons]
          split_ifs
          · rw [List.countP_cons]
            exact Nat.succ_le_succ (ih results)
          · rw [List.countP_cons]
            exact ih (b :: results)

theorem lookupResults_reply (o : LookupOutcome records) (ids : List U128) :
    lookupResults records (o.reply records ids) =
      some (match o.refused ids with
        | some e => .error e
        | none => .ok (ids.filterMap o.find)) := by
  rw [lookupResults, LookupOutcome.reply]
  cases o.refused ids with
  | some e => exact handleMessage_error e []
  | none =>
      rw [handleMessage, if_pos rfl,
        sliceOf_flatMap (by decide) records.length_toBytes records.fromBytes_toBytes]

def everyId (record : U128 → β) (h : ∀ i, records.id (record i) = i) : LookupOutcome records where
  find i := some (record i)
  id_find i b hb := by
    cases hb
    exact h i
  refused _ := none

theorem lookup_faithful_iff (record : U128 → β) (h : ∀ i, records.id (record i) = i)
    (ids : List U128) :
    (∀ o : LookupOutcome records, o.request records ids = some (o.answer records ids)) ↔
      16 * ids.length < 2 ^ 32 := by
  rw [← sentEvents_eq_iff (by decide) ids]
  constructor
  · intro hall
    have hevery := hall (everyId record h)
    rw [LookupOutcome.request, lookupResults_reply, Option.map_some, Option.some.injEq] at hevery
    have hmerged := Except.ok.inj hevery
    have hfound : (ids.map fun id => (id, (everyId record h).find id)).countP
        (fun p => p.2.isSome) = ids.length := by
      rw [List.countP_map]
      exact List.countP_eq_length.2 fun id _ => rfl
    have hsent : ((sentEvents 16 ids).filterMap (everyId record h).find).length =
        (sentEvents 16 ids).length := by
      rw [show (everyId record h).find = fun i => some (record i) from rfl,
        List.filterMap_eq_map', List.length_map]
    have hle := countP_mergeLookupResults_le records ids
      ((sentEvents 16 ids).filterMap (everyId record h).find)
    rw [hmerged, hfound, hsent] at hle
    rw [sentEvents, List.take_eq_self_iff]
    rw [sentEvents, List.length_take] at hle
    omega
  · intro hall o
    rw [LookupOutcome.request, hall, lookupResults_reply, LookupOutcome.answer, Option.map_some]
    cases o.refused ids with
    | some e => rfl
    | none => exact congrArg (fun r => some (Except.ok r)) (mergeLookupResults_map o ids)

end Lookup

/-! ## Both kinds of records -/

/-- The caller of a create request sees, with every event, the result that the cluster has for it,
or the status of a refused batch, exactly where the events take less than 4 GiB. -/
theorem createRequests_faithful_iff (accounts : List Account) (transfers : List Transfer) :
    ((∀ o : BatchOutcome Account CreateAccountResult,
        o.request createAccountCodes recordSize accounts =
          some ((o.outcome accounts).map accounts.zip)) ↔
      recordSize * accounts.length < 2 ^ 32) ∧
    ((∀ o : BatchOutcome Transfer CreateTransferResult,
        o.request createTransferCodes recordSize transfers =
          some ((o.outcome transfers).map transfers.zip)) ↔
      recordSize * transfers.length < 2 ^ 32) :=
  ⟨request_faithful_iff (r := .exists_) (by decide) (by decide) accounts,
    request_faithful_iff (r := .exists_) (by decide) (by decide) transfers⟩

/-- The caller of a lookup sees, with every id, the record that the cluster has for it, or the
status of a refused lookup, exactly where the ids take less than 4 GiB. -/
theorem lookups_faithful_iff (ids : List U128) :
    ((∀ o : LookupOutcome accountBytes, o.request accountBytes ids =
        some (o.answer accountBytes ids)) ↔ 16 * ids.length < 2 ^ 32) ∧
    ((∀ o : LookupOutcome transferBytes, o.request transferBytes ids =
        some (o.answer transferBytes ids)) ↔ 16 * ids.length < 2 ^ 32) :=
  ⟨lookup_faithful_iff (fun i => { (default : Account) with id := i }) (fun _ => rfl) ids,
    lookup_faithful_iff (fun i => { (default : Transfer) with id := i }) (fun _ => rfl) ids⟩

end TbManager
