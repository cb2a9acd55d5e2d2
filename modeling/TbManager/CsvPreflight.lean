import TbManager.CsvPlan
import TbManager.LedgerTotals
import TbManager.Outcome

/-!
# The pre-flight of uploaded transfers

An upload replaces the cached transfers. `PlanCsvMigration` counts in the cache what
`build_plan_from_csv` will sum up and what it will replay, by code of its own; an import
without transfers in its request builds the plan from the same cache.
-/

namespace TbManager

/-! ## Requests and answers -/

structure TransferRecord where
  id : String
  debitAccountId : String
  creditAccountId : String
  amount : String
  pendingId : String
  userData128 : String
  userData64 : U64
  userData32 : U32
  timeout : U32
  ledger : U32
  code : U32
  flags : U32
  timestamp : U64
  deriving DecidableEq, Repr

inductive Status where
  | invalidArgument (message : String)
  | failedPrecondition (message : String)
  deriving DecidableEq, Repr

structure UploadCsvTransfersResponse where
  count : U64
  minTimestamp : U64
  maxTimestamp : U64
  deriving DecidableEq, Repr

structure PlanCsvMigrationResponse where
  totalTransfers : U64
  preCutoffTransfers : U64
  syntheticTransfers : U64
  windowedTransfers : U64
  ledgers : U32
  ledgerSummaries : List LedgerSummary
  uniqueAccounts : U64
  minTimestamp : U64
  maxTimestamp : U64
  deriving DecidableEq, Repr

structure ImportCsvTransfersRequest where
  targetClusterId : String
  targetAddresses : String
  transfers : List TransferRecord
  cutoffTs : U64
  deriving DecidableEq, Repr

/-! ## Parsed records -/

def parseDigits : ℕ → List Char → Option ℕ
  | value, [] => some value
  | value, c :: cs =>
    if c.isDigit then parseDigits (10 * value + (c.toNat - 48)) cs else none

/-- `str::parse::<u128>`: at least one digit, a plus sign before it or not, and no overflow. -/
def parseU128 (s : String) : Option U128 :=
  let digits := match s.toList with
    | '+' :: rest => rest
    | cs => cs
  if digits = [] then none
  else (parseDigits 0 digits).bind fun value =>
    if value < 2 ^ 128 then some (BitVec.ofNat 128 value) else none

/-- A field of a record, refused under its name. -/
def parseField (name value : String) : Except String U128 :=
  match parseU128 value with
  | some parsed => .ok parsed
  | none => .error ("invalid " ++ name ++ ": " ++ value)

def protoToTransfer (t : TransferRecord) : Except String Transfer := do
  let id ← parseField "id" t.id
  let debitAccountId ← parseField "debit_account_id" t.debitAccountId
  let creditAccountId ← parseField "credit_account_id" t.creditAccountId
  let amount ← parseField "amount" t.amount
  let pendingId ← parseField "pending_id" t.pendingId
  let userData128 ← parseField "user_data_128" t.userData128
  return {
    id := id
    debitAccountId := debitAccountId
    creditAccountId := creditAccountId
    amount := amount
    pendingId := pendingId
    userData128 := userData128
    userData64 := t.userData64
    userData32 := t.userData32
    -- an imported transfer cannot have a timeout
    timeout := 0
    ledger := t.ledger
    code := t.code.setWidth 16
    flags := ⟨t.flags.setWidth 16⟩
    timestamp := t.timestamp }

def protoToTransfers (records : List TransferRecord) : Except Status (List Transfer) :=
  (records.mapM protoToTransfer).mapError fun e => .invalidArgument ("invalid transfer: " ++ e)

/-! ## The calls -/

def minTimestamp (transfers : List Transfer) : U64 :=
  BitVec.ofNat 64 ((transfers.map fun t => t.timestamp.toNat).min?.getD 0)

def maxTimestamp (transfers : List Transfer) : U64 :=
  BitVec.ofNat 64 ((transfers.map fun t => t.timestamp.toNat).max?.getD 0)

def uploadCsvTransfers (cached : List Transfer) (records : List TransferRecord) :
    Except Status UploadCsvTransfersResponse × List Transfer :=
  if records = [] then (.error (.invalidArgument "transfers must not be empty"), cached)
  else match protoToTransfers records with
    | .error status => (.error status, cached)
    | .ok transfers =>
      (.ok {
        count := BitVec.ofNat 64 transfers.length
        minTimestamp := minTimestamp transfers
        maxTimestamp := maxTimestamp transfers }, transfers)

def cutoffCounts (prof : Profile) (cached : List Transfer) (cutoffTs : U64) :
    Option (U64 × U64) :=
  let total := BitVec.ofNat 64 cached.length
  if 0 < cutoffTs then do
    let pre := BitVec.ofNat 64 (cached.filter fun t => t.timestamp < cutoffTs).length
    let post ← prof.sub total pre
    some (pre, post)
  else some (0, total)

def distinctKeys (cached : List Transfer) (cutoffTs : U64) : Finset TransferKey :=
  (cached.filter fun t => t.timestamp < cutoffTs).foldl (fun keys t => insert t.key keys) ∅

def uniqueAccounts (cached : List Transfer) : Finset U128 :=
  cached.foldl (fun ids t => insert t.creditAccountId (insert t.debitAccountId ids)) ∅

def saturatePosted (totals : U128 × U128) (t : Transfer) : Option (U128 × U128) :=
  some (saturatingAdd totals.1 t.amount, saturatingAdd totals.2 t.amount)

def planCsvMigration (prof : Profile) (cached : List Transfer) (cutoffTs : U64) :
    Option (Except Status PlanCsvMigrationResponse) :=
  if cached = [] then
    some (.error (.failedPrecondition
      "no CSV transfers uploaded. Call UploadCsvTransfers first."))
  else do
    let counts ← cutoffCounts prof cached cutoffTs
    let ledgers ← ledgerMap prof Transfer.ledger saturatePosted cached
    some (.ok {
      totalTransfers := BitVec.ofNat 64 cached.length
      preCutoffTransfers := counts.1
      syntheticTransfers :=
        if 0 < cutoffTs then BitVec.ofNat 64 (distinctKeys cached cutoffTs).card else 0
      windowedTransfers := counts.2
      ledgers := BitVec.ofNat 32 ledgers.entries.length
      ledgerSummaries := ledgerSummaries ledgers
      uniqueAccounts := BitVec.ofNat 64 (uniqueAccounts cached).card
      minTimestamp := minTimestamp cached
      maxTimestamp := maxTimestamp cached })

/-- The transfers of the request, or without any those of the cache. -/
def transfersToImport (cached : List Transfer) (records : List TransferRecord) :
    Except Status (List Transfer) :=
  if records = [] then
    if cached = [] then
      .error (.failedPrecondition ("no transfers provided and no cached CSV transfers. " ++
        "Call UploadCsvTransfers first or include transfers in the request."))
    else .ok cached
  else protoToTransfers records

/-- The target and the plan of `import_csv_transfers`; `debug` is how `{:?}` shows a string. -/
def importCsvTransfers (debug : String → String) (prof : Profile)
    (ord : IterOrder TransferKey U128) (cached : List Transfer)
    (request : ImportCsvTransfersRequest) : Option (Except Status (U128 × BalancePlan)) :=
  if request.targetAddresses = "" then
    some (.error (.invalidArgument "target_addresses must not be empty"))
  else match parseU128 request.targetClusterId with
    | none => some (.error (.invalidArgument ("invalid target_cluster_id " ++
        debug request.targetClusterId ++ ": expected decimal u128")))
    | some clusterId =>
      match transfersToImport cached request.transfers with
      | .error status => some (.error status)
      | .ok transfers =>
        (BalancePlan.buildPlanFromCsv prof ord transfers request.cutoffTs).map fun plan =>
          .ok (clusterId, plan)

def planThenImport (debug : String → String) (prof : Profile) (ord : IterOrder TransferKey U128)
    (cached : List Transfer) (request : ImportCsvTransfersRequest) :
    Option (Except Status PlanCsvMigrationResponse × Except Status (U128 × BalancePlan)) := do
  let answered ← planCsvMigration prof cached request.cutoffTs
  let imported ← importCsvTransfers debug prof ord cached request
  some (answered, imported)

/-! ## The cache -/

def cachedAfter (uploads : List (List TransferRecord)) : List Transfer :=
  uploads.foldl (fun cached records => (uploadCsvTransfers cached records).2) []

/-- What an upload is accepted as: its records, if there are any and all of them parse. -/
def accepted? (records : List TransferRecord) : Option (List Transfer) :=
  if records = [] then none else (records.mapM protoToTransfer).toOption

def lastAccepted (uploads : List (List TransferRecord)) : List Transfer :=
  (uploads.filterMap accepted?).getLast?.getD []

theorem uploadCsvTransfers_cached (cached : List Transfer) (records : List TransferRecord) :
    (uploadCsvTransfers cached records).2 = (accepted? records).getD cached := by
  unfold uploadCsvTransfers accepted? protoToTransfers
  by_cases hempty : records = []
  · rw [if_pos hempty, if_pos hempty]
    rfl
  · rw [if_neg hempty, if_neg hempty]
    cases records.mapM protoToTransfer with
    | error e => rfl
    | ok transfers => rfl

theorem uploadCsvTransfers_rejected {cached : List Transfer} {records : List TransferRecord}
    {status : Status} (h : (uploadCsvTransfers cached records).1 = .error status) :
    (uploadCsvTransfers cached records).2 = cached := by
  unfold uploadCsvTransfers at h ⊢
  by_cases hempty : records = []
  · rw [if_pos hempty]
  · rw [if_neg hempty] at h ⊢
    cases htransfers : protoToTransfers records with
    | error e => rfl
    | ok transfers =>
        rw [htransfers] at h
        cases h

theorem cachedAfter_concat (uploads : List (List TransferRecord))
    (records : List TransferRecord) :
    cachedAfter (uploads ++ [records]) = (accepted? records).getD (cachedAfter uploads) := by
  rw [cachedAfter, List.foldl_append]
  exact uploadCsvTransfers_cached _ records

theorem cachedAfter_eq (uploads : List (List TransferRecord)) :
    cachedAfter uploads = lastAccepted uploads := by
  induction uploads using List.reverseRecOn with
  | nil => rfl
  | append_singleton uploads records ih =>
      rw [cachedAfter_concat, ih, lastAccepted, lastAccepted, List.filterMap_append]
      cases haccepted : accepted? records with
      | none => simp [haccepted]
      | some transfers => simp [haccepted]

theorem length_mapM_protoToTransfer {records : List TransferRecord} {transfers : List Transfer}
    (h : records.mapM protoToTransfer = .ok transfers) : transfers.length = records.length := by
  induction records generalizing transfers with
  | nil =>
      cases h
      rfl
  | cons r records ih =>
      rw [List.mapM_cons] at h
      obtain ⟨t, -, h⟩ := exceptBind_eq_ok_iff.1 h
      obtain ⟨ts, hts, h⟩ := exceptBind_eq_ok_iff.1 h
      cases h
      rw [List.length_cons, List.length_cons, ih hts]

theorem fitsVec_cachedAfter {uploads : List (List TransferRecord)}
    (hfits : ∀ records ∈ uploads, FitsVec records) : FitsVec (cachedAfter uploads) := by
  rw [cachedAfter_eq, lastAccepted]
  cases hlast : (uploads.filterMap accepted?).getLast? with
  | none => exact Nat.two_pow_pos 63
  | some transfers =>
      obtain ⟨records, hrecords, haccepted⟩ :=
        List.mem_filterMap.1 (List.mem_of_getLast? hlast)
      unfold accepted? at haccepted
      split_ifs at haccepted
      cases htransfers : records.mapM protoToTransfer with
      | error e =>
          rw [htransfers] at haccepted
          cases haccepted
      | ok parsed =>
          rw [htransfers] at haccepted
          cases haccepted
          have hlength := length_mapM_protoToTransfer htransfers
          have hrecord := hfits records hrecords
          rw [FitsVec] at hrecord
          rw [Option.getD_some, FitsVec, hlength]
          exact hrecord

/-! ## The counts -/

section Counts

variable {cached : List Transfer} {c : U64}

theorem foldl_insert {α β : Type*} [DecidableEq β] (f : α → β) (xs : List α) (keys : Finset β) :
    xs.foldl (fun keys x => insert (f x) keys) keys = keys ∪ (xs.map f).toFinset := by
  induction xs generalizing keys with
  | nil => rw [List.foldl_nil, List.map_nil, List.toFinset_nil, Finset.union_empty]
  | cons x xs ih =>
      rw [List.foldl_cons, ih, List.map_cons, List.toFinset_cons, Finset.insert_union,
        Finset.union_insert]

theorem card_distinctKeys (cached : List Transfer) (c : U64) :
    (distinctKeys cached c).card = (BalancePlan.csvKeys c cached).length := by
  rw [distinctKeys, foldl_insert, Finset.empty_union, List.card_toFinset]
  rfl

theorem csvBefore_add_csvFrom (c : U64) (cached : List Transfer) :
    (BalancePlan.csvBefore c cached).length + (BalancePlan.csvFrom c cached).length =
      cached.length := by
  have hsplit := cached.length_eq_length_filter_add fun t => t.timestamp < c
  have hparts := BalancePlan.partition_eq c cached
  rw [List.partition_eq_filter_filter, Prod.mk.injEq] at hparts
  rw [hsplit, ← hparts.1, ← hparts.2]
  rfl

theorem cutoffCounts_eq (prof : Profile) (hfits : FitsVec cached) (c : U64) :
    cutoffCounts prof cached c = some (BitVec.ofNat 64 (BalancePlan.csvBefore c cached).length,
      BitVec.ofNat 64 (BalancePlan.csvFrom c cached).length) := by
  have hsum := csvBefore_add_csvFrom c cached
  unfold FitsVec at hfits
  unfold cutoffCounts
  by_cases hc : 0 < c
  · have hle : BitVec.ofNat 64 (BalancePlan.csvBefore c cached).length ≤
        BitVec.ofNat 64 cached.length := by
      rw [BitVec.le_def, BitVec.toNat_ofNat, BitVec.toNat_ofNat]
      omega
    have hpost : BitVec.ofNat 64 cached.length -
        BitVec.ofNat 64 (BalancePlan.csvBefore c cached).length =
          BitVec.ofNat 64 (BalancePlan.csvFrom c cached).length := by
      apply BitVec.eq_of_toNat_eq
      rw [BitVec.toNat_sub_of_le hle, BitVec.toNat_ofNat, BitVec.toNat_ofNat, BitVec.toNat_ofNat]
      omega
    have hsub := prof.sub_of_le hle
    rw [hpost] at hsub
    rw [if_pos hc]
    exact Option.bind_eq_some_iff.2 ⟨_, hsub, rfl⟩
  · have hzero : c = 0 := by bv_omega
    rw [if_neg hc, hzero, BalancePlan.csvBefore_zero, BalancePlan.csvFrom_zero]
    rfl

/-- The pre-flight has as many sums and window transfers as the plan, and together they are all
that is cached. -/
structure CountsAgree (cached : List Transfer) (answer : PlanCsvMigrationResponse)
    (plan : BalancePlan) : Prop where
  synthetic : plan.syntheticTransfers.length = answer.syntheticTransfers.toNat
  windowed : plan.windowedTransfers.length = answer.windowedTransfers.toNat
  total : answer.preCutoffTransfers.toNat + answer.windowedTransfers.toNat =
    answer.totalTransfers.toNat
  cached : answer.totalTransfers.toNat = cached.length

theorem planCsvMigration_cases {prof : Profile} (hcached : cached ≠ []) (hfits : FitsVec cached)
    {answered : Except Status PlanCsvMigrationResponse}
    (h : planCsvMigration prof cached c = some answered) :
    ∃ answer, answered = .ok answer ∧
      answer.totalTransfers.toNat = cached.length ∧
      answer.preCutoffTransfers.toNat = (BalancePlan.csvBefore c cached).length ∧
      answer.windowedTransfers.toNat = (BalancePlan.csvFrom c cached).length ∧
      answer.syntheticTransfers.toNat = (BalancePlan.csvKeys c cached).length := by
  have hsum := csvBefore_add_csvFrom c cached
  have hkeys := BalancePlan.csvKeys_length_lt (c := c) hfits
  unfold planCsvMigration at h
  rw [if_neg hcached, cutoffCounts_eq prof hfits, Option.bind_eq_bind, Option.bind_some,
    Option.bind_eq_bind, Option.bind_eq_some_iff] at h
  obtain ⟨ledgers, -, hanswered⟩ := h
  unfold FitsVec at hfits
  refine ⟨_, (Option.some.inj hanswered).symm, ?_, ?_, ?_, ?_⟩
  · exact Nat.mod_eq_of_lt (by omega)
  · exact Nat.mod_eq_of_lt (by omega)
  · exact Nat.mod_eq_of_lt (by omega)
  · dsimp only
    by_cases hc : 0 < c
    · rw [if_pos hc, card_distinctKeys]
      exact Nat.mod_eq_of_lt hkeys
    · have hzero : c = 0 := by bv_omega
      rw [if_neg hc, hzero, BalancePlan.csvKeys, BalancePlan.csvBefore_zero]
      rfl

theorem planCsvMigration_release (cached : List Transfer) (hfits : FitsVec cached) (c : U64) :
    ∃ answered, planCsvMigration .release cached c = some answered := by
  obtain ⟨ledgers, hledgers⟩ := @ledgerMap_release _ Transfer.ledger saturatePosted
    (fun _ _ => ⟨_, rfl⟩) cached
  unfold planCsvMigration
  by_cases hcached : cached = []
  · rw [if_pos hcached]
    exact ⟨_, rfl⟩
  · rw [if_neg hcached, cutoffCounts_eq .release hfits, hledgers]
    exact ⟨_, rfl⟩

end Counts

/-! ## Pre-flight and import -/

/-- Both refuse an empty cache. Otherwise both answer, and the counts agree. -/
structure PreflightAgrees (cached : List Transfer) (clusterId : U128)
    (answered : Except Status PlanCsvMigrationResponse)
    (imported : Except Status (U128 × BalancePlan)) : Prop where
  empty : cached = [] → (∃ message, answered = .error (.failedPrecondition message)) ∧
    ∃ message, imported = .error (.failedPrecondition message)
  counts : cached ≠ [] → ∃ answer plan, answered = .ok answer ∧
    imported = .ok (clusterId, plan) ∧ CountsAgree cached answer plan

section Import

variable {debug : String → String} {prof : Profile} {ord : IterOrder TransferKey U128}
  {cached : List Transfer} {request : ImportCsvTransfersRequest} {clusterId : U128}

theorem importCsvTransfers_cached (hinline : request.transfers = [])
    (haddress : request.targetAddresses ≠ "")
    (hcluster : parseU128 request.targetClusterId = some clusterId) (hcached : cached ≠ []) :
    importCsvTransfers debug prof ord cached request =
      (BalancePlan.buildPlanFromCsv prof ord cached request.cutoffTs).map fun plan =>
        .ok (clusterId, plan) := by
  simp only [importCsvTransfers, if_neg haddress, hcluster, transfersToImport, hinline, if_pos,
    if_neg hcached]

theorem importCsvTransfers_empty (hinline : request.transfers = [])
    (haddress : request.targetAddresses ≠ "")
    (hcluster : parseU128 request.targetClusterId = some clusterId) :
    ∃ message, importCsvTransfers debug prof ord [] request =
      some (.error (.failedPrecondition message)) := by
  simp only [importCsvTransfers, if_neg haddress, hcluster, transfersToImport, hinline, if_pos]
  exact ⟨_, rfl⟩

theorem importCsvTransfers_release (cached : List Transfer) (hinline : request.transfers = [])
    (haddress : request.targetAddresses ≠ "")
    (hcluster : parseU128 request.targetClusterId = some clusterId) :
    ∃ imported, importCsvTransfers debug .release ord cached request = some imported := by
  by_cases hcached : cached = []
  · obtain ⟨message, hmessage⟩ := @importCsvTransfers_empty debug .release ord request clusterId
      hinline haddress hcluster
    exact ⟨_, hcached ▸ hmessage⟩
  · obtain ⟨plan, hplan⟩ := BalancePlan.buildPlanFromCsv_release ord cached request.cutoffTs
    rw [importCsvTransfers_cached hinline haddress hcluster hcached, hplan]
    exact ⟨_, rfl⟩

/-- The counts of an answer are those of the plan that the import builds. -/
theorem countsAgree_of_answers (hfits : FitsVec cached) (hcached : cached ≠ []) {c : U64}
    {answered : Except Status PlanCsvMigrationResponse}
    (hanswered : planCsvMigration prof cached c = some answered) {plan : BalancePlan}
    (hplan : BalancePlan.buildPlanFromCsv prof ord cached c = some plan) :
    ∃ answer, answered = .ok answer ∧ CountsAgree cached answer plan := by
  obtain ⟨answer, rfl, htotal, hpre, hwindowed, hsynthetic⟩ :=
    planCsvMigration_cases hcached hfits hanswered
  have hshape := BalancePlan.buildPlanFromCsv_shape hfits hplan
  have hwindow := congrArg List.length hshape.windowed
  rw [List.length_map, List.length_map,
    (BalancePlan.sortByTimestamp_stablySorted _).perm.length_eq] at hwindow
  refine ⟨answer, rfl, ?_, ?_, ?_, htotal⟩
  · rw [hshape.count, hsynthetic]
  · rw [hwindow, hwindowed]
  · rw [hpre, hwindowed, htotal]
    exact csvBefore_add_csvFrom _ _

theorem planThenImport_agrees (hfits : FitsVec cached) (hinline : request.transfers = [])
    (haddress : request.targetAddresses ≠ "")
    (hcluster : parseU128 request.targetClusterId = some clusterId) :
    Delivers (fun prof => planThenImport debug prof ord cached request) fun r =>
      PreflightAgrees cached clusterId r.1 r.2 := by
  constructor
  · obtain ⟨answered, hanswered⟩ := planCsvMigration_release cached hfits request.cutoffTs
    obtain ⟨imported, himported⟩ := @importCsvTransfers_release debug ord request clusterId
      cached hinline haddress hcluster
    dsimp only
    rw [planThenImport, hanswered, himported]
    exact ⟨_, rfl⟩
  · intro prof r hr
    dsimp only at hr
    simp only [planThenImport, Option.bind_eq_bind, Option.bind_eq_some_iff] at hr
    obtain ⟨answered, hanswered, imported, himported, hr⟩ := hr
    cases hr
    constructor
    · rintro rfl
      obtain ⟨message, hmessage⟩ := @importCsvTransfers_empty debug prof ord request clusterId
        hinline haddress hcluster
      rw [hmessage] at himported
      exact ⟨⟨_, (Option.some.inj hanswered).symm⟩, message, (Option.some.inj himported).symm⟩
    · intro hcached
      rw [importCsvTransfers_cached hinline haddress hcluster hcached] at himported
      obtain ⟨plan, hplan, rfl⟩ := Option.map_eq_some_iff.1 himported
      obtain ⟨answer, rfl, hagree⟩ := countsAgree_of_answers hfits hcached hanswered hplan
      exact ⟨answer, plan, rfl, rfl, hagree⟩

end Import

/-- After any uploads the cache is the last accepted one, a rejected upload leaves it unchanged,
and the import of the cache has as many sums and window transfers as its pre-flight reports. -/
theorem csvPreflight_agrees (debug : String → String) (ord : IterOrder TransferKey U128)
    (uploads : List (List TransferRecord)) (hfits : ∀ records ∈ uploads, FitsVec records)
    (request : ImportCsvTransfersRequest) (hinline : request.transfers = [])
    (haddress : request.targetAddresses ≠ "") (clusterId : U128)
    (hcluster : parseU128 request.targetClusterId = some clusterId) :
    cachedAfter uploads = lastAccepted uploads ∧
    (∀ records status, (uploadCsvTransfers (cachedAfter uploads) records).1 = .error status →
      cachedAfter (uploads ++ [records]) = cachedAfter uploads) ∧
    Delivers (fun prof => planThenImport debug prof ord (cachedAfter uploads) request) fun r =>
      PreflightAgrees (lastAccepted uploads) clusterId r.1 r.2 := by
  refine ⟨cachedAfter_eq uploads, fun records status hrejected => ?_, ?_⟩
  · have hcached := uploadCsvTransfers_rejected hrejected
    rwa [uploadCsvTransfers_cached, ← cachedAfter_concat] at hcached
  · rw [cachedAfter_eq uploads]
    exact planThenImport_agrees (cachedAfter_eq uploads ▸ fitsVec_cachedAfter hfits) hinline
      haddress hcluster

def csvRow (id debitId creditId amount : String) (timestamp : U64) : TransferRecord where
  id := id
  debitAccountId := debitId
  creditAccountId := creditId
  amount := amount
  pendingId := "0"
  userData128 := "0"
  userData64 := 0
  userData32 := 0
  timeout := 0
  ledger := 1
  code := 0
  flags := 0
  timestamp := timestamp

def csvUploads : List (List TransferRecord) :=
  [[csvRow "11" "7" "8" "50" 4, csvRow "12" "7" "9" "20" 12], [csvRow "13" "7" "8" "-3" 6], []]

example : lastAccepted csvUploads = [.moving 11 7 8 50 1 0 4, .moving 12 7 9 20 1 0 12] := by
  decide +kernel

theorem csvPreflight_agrees_csvUploads :
    (∀ records ∈ csvUploads, FitsVec records) ∧ parseU128 "+10" = some 10 ∧
    cachedAfter csvUploads = lastAccepted csvUploads ∧
    (∀ records status, (uploadCsvTransfers (cachedAfter csvUploads) records).1 = .error status →
      cachedAfter (csvUploads ++ [records]) = cachedAfter csvUploads) ∧
    Delivers (fun prof => planThenImport String.quote prof .stored (cachedAfter csvUploads)
        ⟨"+10", "h1:3000", [], 10⟩) fun r =>
      PreflightAgrees (lastAccepted csvUploads) 10 r.1 r.2 :=
  have hfits : ∀ records ∈ csvUploads, FitsVec records := by decide
  have hcluster : parseU128 "+10" = some 10 := by decide +kernel
  ⟨hfits, hcluster, csvPreflight_agrees String.quote .stored csvUploads hfits
    ⟨"+10", "h1:3000", [], 10⟩ rfl (by decide) 10 hcluster⟩

end TbManager
