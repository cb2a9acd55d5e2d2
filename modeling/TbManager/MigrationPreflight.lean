import TbManager.LedgerTotals
import TbManager.Migration
import TbManager.WindowOrdering

/-!
# The pre-flight of a migration

`PlanMigration` and `ExecuteMigration` read the data file and build the plan each
for itself. The accounts come out of a hash map, so the second reading may list
them in another order; what the first one reports does not depend on it.
-/

namespace TbManager

attribute [local irreducible] genesisCreditId genesisDebitId

structure AccountRecord where
  id : String
  debitsPending : String
  debitsPosted : String
  creditsPending : String
  creditsPosted : String
  userData128 : String
  userData64 : U64
  userData32 : U32
  ledger : U32
  code : U32
  flags : U32
  timestamp : U64
  deriving DecidableEq, Repr

def accountToProto (a : Account) : AccountRecord where
  id := toString a.id.toNat
  debitsPending := toString a.debitsPending.toNat
  debitsPosted := toString a.debitsPosted.toNat
  creditsPending := toString a.creditsPending.toNat
  creditsPosted := toString a.creditsPosted.toNat
  userData128 := toString a.userData128.toNat
  userData64 := a.userData64
  userData32 := a.userData32
  ledger := a.ledger
  code := a.code.setWidth 32
  flags := a.flags.raw.setWidth 32
  timestamp := a.timestamp

structure PlanMigrationResponse where
  accounts : U64
  pendingTransfers : U64
  syntheticTransfers : U64
  safe : Bool
  ledgers : U32
  ledgerSummaries : List LedgerSummary
  pendingAccounts : List AccountRecord
  windowedTransfers : U64
  deriving DecidableEq, Repr

structure CachedMigrationPlan where
  accounts : List Account
  syntheticTransfers : List SyntheticTransfer
  windowedTransfers : List Transfer
  deriving DecidableEq, Repr

namespace BalancePlan

def buildCounted (prof : Profile) (orders : HashOrders) (file : FileReads) (cutoffTs : U64)
    (accounts : List Account) : Option (Except String (BalancePlan × U64)) :=
  if 0 < cutoffTs then
    match readAllTransfersSince orders.transfers file.transfers cutoffTs with
    | .error e => some (.error e)
    | .ok windowed =>
      (buildWindowed prof orders.ledgers accounts windowed cutoffTs).map fun plan =>
        .ok (plan, BitVec.ofNat 64 windowed.length)
  else (build prof orders.ledgers accounts).map fun plan => .ok (plan, 0)

def planResponse (accounts : List Account) (ledgers : HashMap U32 LedgerEntry)
    (plan : BalancePlan) (windowedCount : U64) : PlanMigrationResponse :=
  let pending := BitVec.ofNat 64 (accounts.filter hasPending).length
  { accounts := BitVec.ofNat 64 accounts.length
    pendingTransfers := pending
    syntheticTransfers := BitVec.ofNat 64 plan.totalTransfers
    safe := pending = 0
    ledgers := BitVec.ofNat 32 ledgers.entries.length
    ledgerSummaries := ledgerSummaries ledgers
    pendingAccounts := (accounts.filter hasPending).map accountToProto
    windowedTransfers := windowedCount }

def planMigration (prof : Profile) (orders : HashOrders) (file : FileReads) (cutoffTs : U64) :
    Option (Except String (PlanMigrationResponse × CachedMigrationPlan)) :=
  match readAllAccounts orders.accounts file.accounts with
  | .error e => some (.error e)
  | .ok accounts => do
    let ledgers ← ledgerMap prof Account.ledger
      (addPosted prof Account.debitsPosted Account.creditsPosted) accounts
    let built ← buildCounted prof orders file cutoffTs accounts
    some (built.map fun (plan, windowedCount) =>
      (planResponse accounts ledgers plan windowedCount,
        { accounts := accounts
          syntheticTransfers := plan.syntheticTransfers
          windowedTransfers := plan.windowedTransfers }))

def planThenExecute (prof : Profile) (orders orders' : HashOrders) (file file' : FileReads)
    (cutoffTs : U64) : Option (Except String (PlanMigrationResponse × CachedMigrationPlan) ×
      Except String BalancePlan) := do
  let answered ← planMigration prof orders file cutoffTs
  let executed ← executeMigrationPlan prof orders' file' cutoffTs false
  some (answered, executed)

/-! ## Sizes of a plan -/

def syntheticCount (accounts : List Account) (windowed : List Transfer) (cutoffTs : U64) : ℕ :=
  if 0 < cutoffTs then transfersAtCutoff windowed cutoffTs accounts
  else (accounts.map Account.sides).sum

def windowedCount (windowed : List Transfer) (cutoffTs : U64) : ℕ :=
  if 0 < cutoffTs then windowed.length else 0

structure Sized (accounts : List Account) (windowed : List Transfer) (cutoffTs : U64)
    (plan : BalancePlan) : Prop where
  regular : plan.regularAccounts.length = accounts.length
  genesis : plan.genesisAccounts.length = 2 * (accounts.map Account.ledger).dedup.length
  synthetic : plan.syntheticTransfers.length = syntheticCount accounts windowed cutoffTs
  window : plan.windowedTransfers.length = windowedCount windowed cutoffTs

section Sizes

variable {accounts accounts' : List Account} {windowed : List Transfer} {cutoffTs : U64}

theorem Sized.congr {plan : BalancePlan} (h : Sized accounts' windowed cutoffTs plan)
    (hperm : accounts'.Perm accounts) : Sized accounts windowed cutoffTs plan := by
  constructor
  · rw [h.regular, hperm.length_eq]
  · rw [h.genesis, (hperm.map Account.ledger).dedup.length_eq]
  · rw [h.synthetic, syntheticCount, syntheticCount, transfersAtCutoff, transfersAtCutoff,
      (hperm.map _).sum_eq, (hperm.map _).sum_eq]
  · exact h.window

theorem regular_length {ord : IterOrder U32 (List Account)} {windowedMode : Bool}
    {plan : BalancePlan} (h : Timeline ord accounts windowedMode plan) :
    plan.regularAccounts.length = accounts.length := by
  have hlength := congrArg List.length h.regular
  rwa [List.length_map, List.length_map, (importOrder_perm accounts).length_eq] at hlength

theorem genesis_length {ord : IterOrder U32 (List Account)} {windowedMode : Bool}
    {plan : BalancePlan} (h : Timeline ord accounts windowedMode plan) :
    plan.genesisAccounts.length = 2 * (accounts.map Account.ledger).dedup.length := by
  rw [h.genesis, genesisAccountsOf_length, groups_length]

theorem build_sized {prof : Profile} {ord : IterOrder U32 (List Account)} {plan : BalancePlan}
    (hcutoff : ¬ 0 < cutoffTs) (h : build prof ord accounts = some plan) :
    Sized accounts windowed cutoffTs plan := by
  have htime := buildSnapshotImpl_timeline h
  refine ⟨regular_length htime, genesis_length htime, ?_, ?_⟩
  · rw [htime.count, syntheticCount, if_neg hcutoff]
  · simp only [build, buildSnapshotImpl, Option.bind_eq_bind, Option.bind_eq_some_iff] at h
    obtain ⟨regular, -, e, -, hplan⟩ := h
    rw [← Option.some.inj hplan, windowedCount, if_neg hcutoff]
    rfl

theorem buildWindowed_sized {prof : Profile} {ord : IterOrder U32 (List Account)}
    {plan : BalancePlan} (hcutoff : 0 < cutoffTs)
    (h : buildWindowed prof ord accounts windowed cutoffTs = some plan) :
    Sized accounts windowed cutoffTs plan := by
  obtain ⟨d, hd, hwindow, -, htime⟩ := buildWindowed_timeline h
  constructor
  · rw [regular_length htime, List.length_map]
  · rw [genesis_length htime, List.map_map]
    simp only [Function.comp_def, adjustAccount_ledger]
  · rw [htime.count, syntheticCount, if_pos hcutoff, transfersAtCutoff, List.map_map]
    congr 1
    exact List.map_congr_left fun a _ => sides_adjustAccount hd cutoffTs a
  · rw [hwindow, windowedCount, if_pos hcutoff]

theorem sides_le_two (a : Account) : a.sides ≤ 2 := by
  unfold Account.sides
  split_ifs <;> omega

theorem sidesAtCutoff_le_two (a : Account) : sidesAtCutoff windowed cutoffTs a ≤ 2 := by
  unfold sidesAtCutoff
  split_ifs <;> omega

theorem sum_map_le_mul {f : Account → ℕ} {n : ℕ} (hf : ∀ a, f a ≤ n) (accounts : List Account) :
    (accounts.map f).sum ≤ n * accounts.length := by
  induction accounts with
  | nil => exact Nat.zero_le _
  | cons a accounts ih =>
      have ha := hf a
      rw [List.map_cons, List.sum_cons, List.length_cons, Nat.mul_succ]
      omega

theorem syntheticCount_le : syntheticCount accounts windowed cutoffTs ≤ 2 * accounts.length := by
  unfold syntheticCount
  split_ifs
  · exact sum_map_le_mul sidesAtCutoff_le_two accounts
  · exact sum_map_le_mul sides_le_two accounts

end Sizes

/-! ## The two readings -/

def ledgerSum (field : Account → U128) (ledger : U32) (accounts : List Account) : ℕ :=
  ((accounts.filter fun a => a.ledger = ledger).map fun a => (field a).toNat).sum

/-- The reported ledgers are those of the accounts, each with its number of accounts and its
sums. -/
structure LedgersReported (accounts : List Account) (summaries : List LedgerSummary) : Prop where
  ledgers : (summaries.map LedgerSummary.ledger).Perm (accounts.map Account.ledger).dedup
  sorted : (summaries.map fun s => s.ledger.toNat).Pairwise (· < ·)
  counts : ∀ s ∈ summaries, s.accountCount.toNat =
    (accounts.filter fun a => a.ledger = s.ledger).length
  debits : ∀ s ∈ summaries, s.totalDebitsPosted =
    toString (ledgerSum Account.debitsPosted s.ledger accounts)
  credits : ∀ s ∈ summaries, s.totalCreditsPosted =
    toString (ledgerSum Account.creditsPosted s.ledger accounts)

/-- A refusal exactly where the pre-flight reports an unsafe migration, else a plan of the
reported sizes; and the reported totals are the sums over the accounts. -/
structure Announces (accounts : List Account) (response : PlanMigrationResponse)
    (executed : Except String BalancePlan) : Prop where
  refused : (∃ reason, executed = .error reason) ↔ response.safe = false
  regular : ∀ plan, executed = .ok plan →
    plan.regularAccounts.length = response.accounts.toNat
  genesis : ∀ plan, executed = .ok plan →
    plan.genesisAccounts.length = 2 * response.ledgers.toNat
  synthetic : ∀ plan, executed = .ok plan →
    plan.syntheticTransfers.length = response.syntheticTransfers.toNat
  atMostTwo : response.syntheticTransfers.toNat ≤ 2 * response.accounts.toNat
  window : ∀ plan, executed = .ok plan →
    plan.windowedTransfers.length = response.windowedTransfers.toNat
  totals : LedgersReported accounts response.ledgerSummaries

section Readings

variable {prof : Profile} {orders : HashOrders} {file : FileReads} {cutoffTs : U64}
  {accounts : List Account} {windowed : List Transfer}

theorem buildCounted_sized
    (hwindow : 0 < cutoffTs →
      readAllTransfersSince orders.transfers file.transfers cutoffTs = .ok windowed)
    {built : Except String (BalancePlan × U64)}
    (h : buildCounted prof orders file cutoffTs accounts = some built) :
    ∃ plan, built = .ok (plan, BitVec.ofNat 64 (windowedCount windowed cutoffTs)) ∧
      Sized accounts windowed cutoffTs plan := by
  unfold buildCounted at h
  by_cases hcutoff : 0 < cutoffTs
  · rw [if_pos hcutoff, hwindow hcutoff] at h
    obtain ⟨plan, hplan, rfl⟩ := Option.map_eq_some_iff.1 h
    rw [windowedCount, if_pos hcutoff]
    exact ⟨plan, rfl, buildWindowed_sized hcutoff hplan⟩
  · rw [if_neg hcutoff] at h
    obtain ⟨plan, hplan, rfl⟩ := Option.map_eq_some_iff.1 h
    rw [windowedCount, if_neg hcutoff]
    exact ⟨plan, rfl, build_sized hcutoff hplan⟩

theorem buildCounted_release
    (hwindow : 0 < cutoffTs →
      readAllTransfersSince orders.transfers file.transfers cutoffTs = .ok windowed)
    (accounts : List Account) :
    ∃ built, buildCounted .release orders file cutoffTs accounts = some built := by
  unfold buildCounted
  by_cases hcutoff : 0 < cutoffTs
  · obtain ⟨plan, hplan⟩ := buildWindowed_release orders.ledgers accounts windowed cutoffTs
    rw [if_pos hcutoff, hwindow hcutoff]
    exact ⟨_, Option.map_eq_some_iff.2 ⟨plan, hplan, rfl⟩⟩
  · obtain ⟨plan, hplan⟩ := buildSnapshotImpl_release orders.ledgers accounts false
    rw [if_neg hcutoff]
    exact ⟨_, Option.map_eq_some_iff.2 ⟨plan, hplan, rfl⟩⟩

theorem buildFor_eq_map (prof : Profile) (orders : HashOrders) (file : FileReads)
    (cutoffTs : U64) (accounts : List Account) :
    buildFor prof orders file cutoffTs accounts =
      (buildCounted prof orders file cutoffTs accounts).map (Except.map Prod.fst) := by
  unfold buildFor buildCounted
  by_cases hcutoff : 0 < cutoffTs
  · rw [if_pos hcutoff, if_pos hcutoff]
    cases readAllTransfersSince orders.transfers file.transfers cutoffTs with
    | error e => rfl
    | ok windowed =>
        rw [Option.map_map]
        rfl
  · rw [if_neg hcutoff, if_neg hcutoff, Option.map_map]
    rfl

end Readings

section Readings

variable {prof : Profile} {orders : HashOrders} {file : FileReads} {cutoffTs : U64}
  {accounts : List Account} {windowed : List Transfer}

theorem planMigration_cases (hread : readAllAccounts orders.accounts file.accounts = .ok accounts)
    (hwindow : 0 < cutoffTs →
      readAllTransfersSince orders.transfers file.transfers cutoffTs = .ok windowed)
    {answered : Except String (PlanMigrationResponse × CachedMigrationPlan)}
    (h : planMigration prof orders file cutoffTs = some answered) :
    ∃ ledgers plan, ledgerMap prof Account.ledger
        (addPosted prof Account.debitsPosted Account.creditsPosted) accounts = some ledgers ∧
      Sized accounts windowed cutoffTs plan ∧
      answered = .ok (planResponse accounts ledgers plan
          (BitVec.ofNat 64 (windowedCount windowed cutoffTs)),
        ⟨accounts, plan.syntheticTransfers, plan.windowedTransfers⟩) := by
  simp only [planMigration, hread, Option.bind_eq_bind, Option.bind_eq_some_iff] at h
  obtain ⟨ledgers, hledgers, built, hbuilt, hanswered⟩ := h
  obtain ⟨plan, rfl, hsized⟩ := buildCounted_sized hwindow hbuilt
  exact ⟨ledgers, plan, hledgers, hsized, (Option.some.inj hanswered).symm⟩

theorem planMigration_release
    (hread : readAllAccounts orders.accounts file.accounts = .ok accounts)
    (hwindow : 0 < cutoffTs →
      readAllTransfersSince orders.transfers file.transfers cutoffTs = .ok windowed) :
    ∃ answered, planMigration .release orders file cutoffTs = some answered := by
  obtain ⟨ledgers, hledgers⟩ := @ledgerMap_release _ Account.ledger
    (addPosted .release Account.debitsPosted Account.creditsPosted) (fun _ _ => ⟨_, rfl⟩) accounts
  obtain ⟨built, hbuilt⟩ := buildCounted_release hwindow accounts
  simp only [planMigration, hread, hledgers, hbuilt, Option.bind_eq_bind, Option.bind_some]
  exact ⟨_, rfl⟩

theorem executeMigrationPlan_cases
    (hread : readAllAccounts orders.accounts file.accounts = .ok accounts)
    (hwindow : 0 < cutoffTs →
      readAllTransfersSince orders.transfers file.transfers cutoffTs = .ok windowed)
    {executed : Except String BalancePlan}
    (h : executeMigrationPlan prof orders file cutoffTs false = some executed) :
    ((∃ a ∈ accounts, hasPending a) ∧ ∃ reason, executed = .error reason) ∨
      (¬ ∃ a ∈ accounts, hasPending a) ∧ ∃ plan, executed = .ok plan ∧
        Sized accounts windowed cutoffTs plan := by
  have hpos : 0 < (accounts.filter hasPending).length ↔ ∃ a ∈ accounts, hasPending a := by
    rw [List.length_pos_iff_exists_mem]
    simp only [List.mem_filter]
  simp only [executeMigrationPlan, hread, Bool.false_eq_true, if_false] at h
  split_ifs at h with hpending
  · exact .inl ⟨hpos.1 hpending, _, (Option.some.inj h).symm⟩
  · refine .inr ⟨fun hexists => hpending (hpos.2 hexists), ?_⟩
    rw [buildFor_eq_map, Option.map_map] at h
    obtain ⟨built, hbuilt, rfl⟩ := Option.map_eq_some_iff.1 h
    obtain ⟨plan, rfl, hsized⟩ := buildCounted_sized hwindow hbuilt
    exact ⟨plan, rfl, hsized⟩

theorem executeMigrationPlan_release
    (hread : readAllAccounts orders.accounts file.accounts = .ok accounts)
    (hwindow : 0 < cutoffTs →
      readAllTransfersSince orders.transfers file.transfers cutoffTs = .ok windowed) :
    ∃ executed, executeMigrationPlan .release orders file cutoffTs false = some executed := by
  obtain ⟨built, hbuilt⟩ := buildCounted_release hwindow accounts
  simp only [executeMigrationPlan, hread, Bool.false_eq_true, if_false]
  split_ifs
  · exact ⟨_, rfl⟩
  · rw [buildFor_eq_map, hbuilt]
    exact ⟨_, rfl⟩

end Readings

/-! ## What the pre-flight reports -/

section Reports

variable {prof : Profile} {accounts : List Account} {ledgers : HashMap U32 LedgerEntry}
  {plan : BalancePlan} {windowCount : U64}

theorem planResponse_safe_iff (hlen : FitsVec accounts) :
    (planResponse accounts ledgers plan windowCount).safe = false ↔
      ∃ a ∈ accounts, hasPending a := by
  have hcount : (BitVec.ofNat 64 (accounts.filter hasPending).length).toNat =
      (accounts.filter hasPending).length := (hlen.filter _).toNat_length
  have hzero : BitVec.ofNat 64 (accounts.filter hasPending).length = 0 ↔
      accounts.filter hasPending = [] := by
    rw [← BitVec.toNat_inj, hcount]
    exact List.length_eq_zero_iff
  change decide (BitVec.ofNat 64 (accounts.filter hasPending).length = 0) = false ↔ _
  rw [decide_eq_false_iff_not, hzero, List.filter_eq_nil_iff]
  constructor
  · intro h
    by_contra hnone
    exact h fun a ha hpending => hnone ⟨a, ha, hpending⟩
  · rintro ⟨a, ha, hpending⟩ h
    exact h a ha hpending

theorem ledgersReported (hlen : FitsVec accounts)
    (hsums : ∀ l, ledgerSum Account.debitsPosted l accounts < 2 ^ 128 ∧
      ledgerSum Account.creditsPosted l accounts < 2 ^ 128)
    (h : ledgerMap prof Account.ledger
      (addPosted prof Account.debitsPosted Account.creditsPosted) accounts = some ledgers) :
    LedgersReported accounts (ledgerSummaries ledgers) := by
  have hfit : ∀ field : Account → U128, (∀ l, ledgerSum field l accounts < 2 ^ 128) →
      HashMap.SumsFit Account.ledger field accounts := by
    intro field hfield l
    rw [HashMap.keySum_eq_filter]
    exact hfield l
  have hreport := reportsSums_of_fit (addPosted_addsExactly prof _ _) hlen
    (hfit Account.debitsPosted fun l => (hsums l).1)
    (hfit Account.creditsPosted fun l => (hsums l).2) h
  constructor
  · exact hreport.ledgers
  · exact ledgerSummaries_sorted ledgers
  · exact hreport.counts
  · intro s hs
    rw [hreport.debits s hs, HashMap.keySum_eq_filter]
    rfl
  · intro s hs
    rw [hreport.credits s hs, HashMap.keySum_eq_filter]
    rfl

end Reports

/-! ## The pre-flight and the migration -/

section Announces

variable {prof : Profile} {accounts : List Account} {ledgers : HashMap U32 LedgerEntry}
  {plan : BalancePlan} {windowed : List Transfer} {cutoffTs : U64}
  {executed : Except String BalancePlan}

/-- The count of the ledgers is exact unless every 32-bit number is one. -/
theorem toNat_reported_ledgers
    (h : ledgerMap prof Account.ledger
      (addPosted prof Account.debitsPosted Account.creditsPosted) accounts = some ledgers) :
    (BitVec.ofNat 32 ledgers.entries.length).toNat =
        (accounts.map Account.ledger).dedup.length ↔
      (accounts.map Account.ledger).dedup.length < 2 ^ 32 := by
  rw [ledgerMap_length h, BitVec.toNat_ofNat]
  omega

theorem toNat_reported_transfers (hlen : FitsVec accounts)
    (hsized : Sized accounts windowed cutoffTs plan) :
    (BitVec.ofNat 64 plan.totalTransfers).toNat = syntheticCount accounts windowed cutoffTs := by
  have hcount := @syntheticCount_le accounts windowed cutoffTs
  unfold FitsVec at hlen
  rw [totalTransfers, hsized.synthetic, BitVec.toNat_ofNat]
  omega

theorem toNat_reported_window (hlen : FitsVec windowed) (cutoffTs : U64) :
    (BitVec.ofNat 64 (windowedCount windowed cutoffTs)).toNat =
      windowedCount windowed cutoffTs := by
  unfold windowedCount
  split_ifs
  · exact hlen.toNat_length
  · rfl

theorem planResponse_atMostTwo (hlen : FitsVec accounts)
    (hsized : Sized accounts windowed cutoffTs plan) (windowCount : U64) :
    (planResponse accounts ledgers plan windowCount).syntheticTransfers.toNat ≤
      2 * (planResponse accounts ledgers plan windowCount).accounts.toNat := by
  change (BitVec.ofNat 64 plan.totalTransfers).toNat ≤
    2 * (BitVec.ofNat 64 accounts.length).toNat
  rw [toNat_reported_transfers hlen hsized, hlen.toNat_length]
  exact syntheticCount_le

variable (hlen : FitsVec accounts)
  (hsums : ∀ l, ledgerSum Account.debitsPosted l accounts < 2 ^ 128 ∧
    ledgerSum Account.creditsPosted l accounts < 2 ^ 128)
  (hledgers : ledgerMap prof Account.ledger
    (addPosted prof Account.debitsPosted Account.creditsPosted) accounts = some ledgers)
  (hsized : Sized accounts windowed cutoffTs plan)

include hlen hsums hledgers hsized

/-- Of a migration that is refused only the reports on the accounts matter. -/
theorem announces_refused (windowCount : U64) (hpending : ∃ a ∈ accounts, hasPending a)
    (reason : String) :
    Announces accounts (planResponse accounts ledgers plan windowCount) (.error reason) := by
  constructor
  · exact ⟨fun _ => (planResponse_safe_iff hlen).2 hpending, fun _ => ⟨reason, rfl⟩⟩
  · rintro _ ⟨⟩
  · rintro _ ⟨⟩
  · rintro _ ⟨⟩
  · exact planResponse_atMostTwo hlen hsized windowCount
  · rintro _ ⟨⟩
  · exact ledgersReported hlen hsums hledgers

theorem announces_planned_iff (hlen' : FitsVec windowed)
    (hnone : ¬ ∃ a ∈ accounts, hasPending a) {executed : BalancePlan}
    (hexecuted : Sized accounts windowed cutoffTs executed) :
    Announces accounts (planResponse accounts ledgers plan
        (BitVec.ofNat 64 (windowedCount windowed cutoffTs))) (.ok executed) ↔
      (accounts.map Account.ledger).dedup.length < 2 ^ 32 := by
  constructor
  · intro h
    have hgenesis := h.genesis executed rfl
    change _ = 2 * (BitVec.ofNat 32 ledgers.entries.length).toNat at hgenesis
    rw [hexecuted.genesis] at hgenesis
    rw [← toNat_reported_ledgers hledgers]
    omega
  · intro hfew
    have hgenesis := (toNat_reported_ledgers hledgers).2 hfew
    constructor
    · refine iff_of_false (fun ⟨_, herror⟩ => nomatch herror) fun hsafe => hnone ?_
      exact (planResponse_safe_iff hlen).1 hsafe
    · rintro _ ⟨⟩
      exact hexecuted.regular.trans hlen.toNat_length.symm
    · rintro _ ⟨⟩
      rw [hexecuted.genesis, ← hgenesis]
      rfl
    · rintro _ ⟨⟩
      exact hexecuted.synthetic.trans (toNat_reported_transfers hlen hsized).symm
    · exact planResponse_atMostTwo hlen hsized _
    · rintro _ ⟨⟩
      exact hexecuted.window.trans (toNat_reported_window hlen' cutoffTs).symm
    · exact ledgersReported hlen hsums hledgers

theorem announces_iff (hlen' : FitsVec windowed)
    (hexecuted : ((∃ a ∈ accounts, hasPending a) ∧ ∃ reason, executed = .error reason) ∨
      (¬ ∃ a ∈ accounts, hasPending a) ∧ ∃ plan, executed = .ok plan ∧
        Sized accounts windowed cutoffTs plan) :
    Announces accounts (planResponse accounts ledgers plan
        (BitVec.ofNat 64 (windowedCount windowed cutoffTs))) executed ↔
      (∃ a ∈ accounts, hasPending a) ∨ (accounts.map Account.ledger).dedup.length < 2 ^ 32 := by
  rcases hexecuted with ⟨hpending, reason, rfl⟩ | ⟨hnone, plan', rfl, hsized'⟩
  · exact iff_of_true (announces_refused hlen hsums hledgers hsized _ hpending reason)
      (.inl hpending)
  · rw [announces_planned_iff hlen hsums hledgers hsized hlen' hnone hsized', or_iff_right hnone]

end Announces

section Both

variable {orders orders' : HashOrders} {file file' : FileReads} {cutoffTs : U64}
  {accounts accounts' : List Account} {windowed : List Transfer}

theorem planThenExecute_cases {prof : Profile}
    (hread : readAllAccounts orders.accounts file.accounts = .ok accounts)
    (hread' : readAllAccounts orders'.accounts file'.accounts = .ok accounts')
    (hperm : accounts'.Perm accounts)
    (hwindow : 0 < cutoffTs →
      readAllTransfersSince orders.transfers file.transfers cutoffTs = .ok windowed)
    (hwindow' : 0 < cutoffTs →
      readAllTransfersSince orders'.transfers file'.transfers cutoffTs = .ok windowed)
    (hlen : FitsVec accounts) (hlen' : FitsVec windowed)
    (hsums : ∀ l, ledgerSum Account.debitsPosted l accounts < 2 ^ 128 ∧
      ledgerSum Account.creditsPosted l accounts < 2 ^ 128)
    {result : Except String (PlanMigrationResponse × CachedMigrationPlan) ×
      Except String BalancePlan}
    (h : planThenExecute prof orders orders' file file' cutoffTs = some result) :
    ∃ response cached, result.1 = .ok (response, cached) ∧
      (Announces accounts response result.2 ↔ (∃ a ∈ accounts, hasPending a) ∨
        (accounts.map Account.ledger).dedup.length < 2 ^ 32) := by
  simp only [planThenExecute, Option.bind_eq_bind, Option.bind_eq_some_iff] at h
  obtain ⟨answered, hanswered, executed, hexecuted, hpair⟩ := h
  obtain ⟨ledgers, plan, hledgers, hsized, rfl⟩ := planMigration_cases hread hwindow hanswered
  have hexecuted := executeMigrationPlan_cases hread' hwindow' hexecuted
  have hsame : (∃ a ∈ accounts', hasPending a) ↔ ∃ a ∈ accounts, hasPending a := by
    simp only [hperm.mem_iff]
  rw [hsame] at hexecuted
  rw [← Option.some.inj hpair]
  refine ⟨_, _, rfl, announces_iff hlen hsums hledgers hsized hlen' ?_⟩
  exact hexecuted.imp_right fun ⟨hnone, plan', hplan', hsized'⟩ =>
    ⟨hnone, plan', hplan', hsized'.congr hperm⟩

theorem planThenExecute_release
    (hread : readAllAccounts orders.accounts file.accounts = .ok accounts)
    (hread' : readAllAccounts orders'.accounts file'.accounts = .ok accounts')
    (hwindow : 0 < cutoffTs →
      readAllTransfersSince orders.transfers file.transfers cutoffTs = .ok windowed)
    (hwindow' : 0 < cutoffTs →
      readAllTransfersSince orders'.transfers file'.transfers cutoffTs = .ok windowed) :
    ∃ result, planThenExecute .release orders orders' file file' cutoffTs = some result := by
  obtain ⟨answered, hanswered⟩ := planMigration_release hread hwindow
  obtain ⟨executed, hexecuted⟩ := executeMigrationPlan_release hread' hwindow'
  simp only [planThenExecute, hanswered, hexecuted, Option.bind_eq_bind, Option.bind_some]
  exact ⟨_, rfl⟩

end Both

/-- What the pre-flight reports of one reading of the accounts is what the migration does with
any other reading, in every build that returns, exactly when it refuses or does not meet all
`2 ^ 32` ledgers. -/
theorem planThenExecute_announces_iff (orders orders' : HashOrders) (file file' : FileReads)
    (cutoffTs : U64) {accounts accounts' : List Account} {windowed : List Transfer}
    (hread : readAllAccounts orders.accounts file.accounts = .ok accounts)
    (hread' : readAllAccounts orders'.accounts file'.accounts = .ok accounts')
    (hperm : accounts'.Perm accounts)
    (hwindow : 0 < cutoffTs →
      readAllTransfersSince orders.transfers file.transfers cutoffTs = .ok windowed)
    (hwindow' : 0 < cutoffTs →
      readAllTransfersSince orders'.transfers file'.transfers cutoffTs = .ok windowed)
    (hlen : FitsVec accounts) (hlen' : FitsVec windowed)
    (hsums : ∀ l, ledgerSum Account.debitsPosted l accounts < 2 ^ 128 ∧
      ledgerSum Account.creditsPosted l accounts < 2 ^ 128) :
    Delivers (fun prof => planThenExecute prof orders orders' file file' cutoffTs)
        (fun result => ∃ response cached, result.1 = .ok (response, cached) ∧
          Announces accounts response result.2) ↔
      (∃ a ∈ accounts, hasPending a) ∨ (accounts.map Account.ledger).dedup.length < 2 ^ 32 := by
  constructor
  · rintro ⟨⟨result, hresult⟩, hall⟩
    obtain ⟨response, cached, hanswer, hannounces⟩ := hall .release result hresult
    obtain ⟨response', cached', hanswer', hiff⟩ :=
      planThenExecute_cases hread hread' hperm hwindow hwindow' hlen hlen' hsums hresult
    rw [hanswer, Except.ok.injEq, Prod.mk.injEq] at hanswer'
    exact hiff.1 (hanswer'.1 ▸ hannounces)
  · intro hfew
    refine ⟨planThenExecute_release hread hread' hwindow hwindow', fun prof result hresult => ?_⟩
    obtain ⟨response, cached, hanswer, hiff⟩ :=
      planThenExecute_cases hread hread' hperm hwindow hwindow' hlen hlen' hsums hresult
    exact ⟨response, cached, hanswer, hiff.2 hfew⟩

/-- No account is on ledger 0, which TigerBeetle refuses when an account is created. -/
def LedgersNotZero (accounts : List Account) : Prop := ∀ a ∈ accounts, a.ledger ≠ 0

theorem ledgers_lt_of_notZero {accounts : List Account} (h : LedgersNotZero accounts) :
    (accounts.map Account.ledger).dedup.length < 2 ^ 32 := by
  have hzero : (0 : U32) ∉ (accounts.map Account.ledger).dedup := by
    rw [List.mem_dedup, List.mem_map]
    rintro ⟨a, ha, hledger⟩
    exact h a ha hledger
  have hnodup : ((0 :: (accounts.map Account.ledger).dedup).map BitVec.toNat).Nodup :=
    (List.nodup_cons.2 ⟨hzero, List.nodup_dedup _⟩).map fun _ _ h => BitVec.eq_of_toNat_eq h
  have hsub : (0 :: (accounts.map Account.ledger).dedup).map BitVec.toNat ⊆
      List.range (2 ^ 32) := by
    intro n hn
    obtain ⟨l, _, rfl⟩ := List.mem_map.1 hn
    exact List.mem_range.2 l.isLt
  have hle := (hnodup.subperm hsub).length_le
  rw [List.length_map, List.length_cons, List.length_range] at hle
  exact hle

/-- With no account on ledger 0, what the pre-flight reports of one reading of the accounts is what
the migration does with any other reading, in every build that returns. -/
theorem planThenExecute_announces (orders orders' : HashOrders) (file file' : FileReads)
    (cutoffTs : U64) {accounts accounts' : List Account} {windowed : List Transfer}
    (hread : readAllAccounts orders.accounts file.accounts = .ok accounts)
    (hread' : readAllAccounts orders'.accounts file'.accounts = .ok accounts')
    (hperm : accounts'.Perm accounts) (hledgers : LedgersNotZero accounts)
    (hwindow : 0 < cutoffTs →
      readAllTransfersSince orders.transfers file.transfers cutoffTs = .ok windowed)
    (hwindow' : 0 < cutoffTs →
      readAllTransfersSince orders'.transfers file'.transfers cutoffTs = .ok windowed)
    (hlen : FitsVec accounts) (hlen' : FitsVec windowed)
    (hsums : ∀ l, ledgerSum Account.debitsPosted l accounts < 2 ^ 128 ∧
      ledgerSum Account.creditsPosted l accounts < 2 ^ 128) :
    Delivers (fun prof => planThenExecute prof orders orders' file file' cutoffTs)
      (fun result => ∃ response cached, result.1 = .ok (response, cached) ∧
        Announces accounts response result.2) :=
  (planThenExecute_announces_iff orders orders' file file' cutoffTs hread hread' hperm hwindow
    hwindow' hlen hlen' hsums).2 (.inr (ledgers_lt_of_notZero hledgers))

theorem ledgerSum_le (field : Account → U128) (l : U32) (accounts : List Account) :
    ledgerSum field l accounts ≤ (accounts.map fun a => (field a).toNat).sum :=
  (List.filter_sublist.map _).sum_le_sum fun _ _ => Nat.zero_le _

def listed : List Account := [.holding 9 2 0 0 0, .holding 8 1 0 100 2, .holding 7 1 100 0 1]

def listedFile : FileReads where
  accounts := .ok (.ofRecords [.holding 7 1 100 0 1, .holding 8 1 0 100 2] [.holding 9 2 0 0 0])
  transfers := .ok (.ofRecords [.moving 5 7 8 30 1 0 12] [])

theorem planThenExecute_announces_listed :
    readAllAccounts .stored listedFile.accounts = .ok listed ∧
    readAllAccounts .reversed listedFile.accounts = .ok listed.reverse ∧
    listed.reverse.Perm listed ∧ LedgersNotZero listed ∧
    readAllTransfersSince .stored listedFile.transfers 10 = .ok [.moving 5 7 8 30 1 0 12] ∧
    readAllTransfersSince .reversed listedFile.transfers 10 = .ok [.moving 5 7 8 30 1 0 12] ∧
    FitsVec listed ∧ FitsVec [Transfer.moving 5 7 8 30 1 0 12] ∧
    (∀ l, ledgerSum Account.debitsPosted l listed < 2 ^ 128 ∧
      ledgerSum Account.creditsPosted l listed < 2 ^ 128) ∧
    Delivers (fun prof => planThenExecute prof ⟨.stored, .stored, .stored⟩
        ⟨.reversed, .reversed, .reversed⟩ listedFile listedFile 10)
      (fun result => ∃ response cached, result.1 = .ok (response, cached) ∧
        Announces listed response result.2) :=
  have hread : readAllAccounts .stored listedFile.accounts = .ok listed := by decide +kernel
  have hread' : readAllAccounts .reversed listedFile.accounts = .ok listed.reverse := by
    decide +kernel
  have hledgers : LedgersNotZero listed := by
    unfold LedgersNotZero
    decide
  have hwindow : readAllTransfersSince .stored listedFile.transfers 10 =
      .ok [.moving 5 7 8 30 1 0 12] := by decide +kernel
  have hwindow' : readAllTransfersSince .reversed listedFile.transfers 10 =
      .ok [.moving 5 7 8 30 1 0 12] := by decide +kernel
  have hlen : FitsVec listed := by decide
  have hlen' : FitsVec [Transfer.moving 5 7 8 30 1 0 12] := by decide
  have hsums : ∀ l, ledgerSum Account.debitsPosted l listed < 2 ^ 128 ∧
      ledgerSum Account.creditsPosted l listed < 2 ^ 128 := fun l =>
    ⟨(ledgerSum_le _ l listed).trans_lt (by decide), (ledgerSum_le _ l listed).trans_lt (by decide)⟩
  ⟨hread, hread', List.reverse_perm _, hledgers, hwindow, hwindow', hlen, hlen', hsums,
    planThenExecute_announces ⟨.stored, .stored, .stored⟩ ⟨.reversed, .reversed, .reversed⟩
      listedFile listedFile 10 hread hread' (List.reverse_perm _) hledgers (fun _ => hwindow)
      (fun _ => hwindow') hlen hlen' hsums⟩

end BalancePlan

end TbManager
