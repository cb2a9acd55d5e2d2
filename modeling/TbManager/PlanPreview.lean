import TbManager.BrowseAccounts
import TbManager.ReadOrder

/-!
# Browsing the planned transfers

`GetMigrationSyntheticTransfers` shows the synthetic transfers of the last `PlanMigration` page by
page, as text. `ExecuteMigration` does not use that cache: it reads the data file again, its tables
and hash maps in another order, and plans anew. Accounts that the log creates have no timestamp of their own
and may change places, but they hold no balance: the transfers of both plans are the same, and what
is read on the pages is what the migration submits.
-/

namespace TbManager

attribute [local irreducible] genesisCreditId genesisDebitId

open HashMap BalancePlan

/-! ## Requests and answers -/

structure SyntheticTransferRecord where
  id : String
  debitAccountId : String
  creditAccountId : String
  amount : String
  ledger : U32
  code : U32
  timestamp : U64
  deriving DecidableEq, Repr

structure GetMigrationSyntheticTransfersRequest where
  page : U32
  limit : U32
  ledger : Option U32
  deriving DecidableEq, Repr

structure GetMigrationSyntheticTransfersResponse where
  transfers : List SyntheticTransferRecord
  page : U32
  limit : U32
  totalCount : U64
  deriving DecidableEq, Repr

def syntheticToProto (t : SyntheticTransfer) : SyntheticTransferRecord where
  id := toString t.id.toNat
  debitAccountId := toString t.debitAccountId.toNat
  creditAccountId := toString t.creditAccountId.toNat
  amount := toString t.amount.toNat
  ledger := t.ledger
  code := t.code.setWidth 32
  timestamp := t.timestamp

/-- One page of the cached transfers of a ledger, or of all. Page times limit is below 2^41. -/
def getMigrationSyntheticTransfers (cached : Option CachedMigrationPlan)
    (request : GetMigrationSyntheticTransfersRequest) :
    Except NotFound GetMigrationSyntheticTransfersResponse :=
  match cached with
  | none => .error ⟨"No cached migration plan. Run PlanMigration first."⟩
  | some plan =>
    let limit := pageLimit request.limit
    let matched := plan.syntheticTransfers.filter fun t => passesField request.ledger t.ledger
    .ok
      { transfers :=
          ((matched.drop (request.page.toNat * limit)).take limit).map syntheticToProto
        page := request.page
        limit := request.limit
        totalCount := BitVec.ofNat 64 matched.length }

/-! ## What a page shows -/

def SyntheticTransferRecord.shown (r : SyntheticTransferRecord) : Option SyntheticTransfer := do
  let id ← parseU128 r.id
  let debitAccountId ← parseU128 r.debitAccountId
  let creditAccountId ← parseU128 r.creditAccountId
  let amount ← parseU128 r.amount
  let code ← if r.code.toNat < 2 ^ 16 then some (r.code.setWidth 16) else none
  some
    { id := id, debitAccountId := debitAccountId, creditAccountId := creditAccountId,
      amount := amount, ledger := r.ledger, code := code, timestamp := r.timestamp }

/-- While the cache does not change, the first pages together tell of the first of the transfers,
and every page tells how many there are. -/
def ShowsTransfers (cached : CachedMigrationPlan) (ledger : Option U32) (limit : U32)
    (ts : List SyntheticTransfer) : Prop :=
  ∃ responses : U32 → GetMigrationSyntheticTransfersResponse,
    (∀ page, getMigrationSyntheticTransfers (some cached) ⟨page, limit, ledger⟩ =
      .ok (responses page)) ∧
    (∀ n ≤ 2 ^ 32,
      ((List.range n).flatMap fun p => (responses (BitVec.ofNat 32 p)).transfers).mapM
        SyntheticTransferRecord.shown = some (ts.take (n * pageLimit limit))) ∧
    ∀ page, (responses page).totalCount.toNat = ts.length

theorem shown_syntheticToProto (t : SyntheticTransfer) : (syntheticToProto t).shown = some t := by
  have hcode : (t.code.setWidth 32).toNat < 2 ^ 16 := by
    rw [BitVec.toNat_setWidth_of_le (by decide)]
    exact t.code.isLt
  have hback : (t.code.setWidth 32).setWidth 16 = t.code := by
    apply BitVec.eq_of_toNat_eq
    rw [BitVec.toNat_setWidth, BitVec.toNat_setWidth_of_le (by decide),
      Nat.mod_eq_of_lt t.code.isLt]
  simp only [SyntheticTransferRecord.shown, syntheticToProto, parseU128_toString, hcode, if_true,
    hback, Option.bind_eq_bind, Option.bind_some]

theorem mapM_shown (ts : List SyntheticTransfer) :
    (ts.map syntheticToProto).mapM SyntheticTransferRecord.shown = some ts := by
  have hshown : ∀ t ∈ ts, (SyntheticTransferRecord.shown ∘ syntheticToProto) t = some (id t) :=
    fun t _ => shown_syntheticToProto t
  rw [List.mapM_map, mapM_eq_some_map hshown, List.map_id]

theorem showsTransfers (cached : CachedMigrationPlan) (ledger : Option U32) (limit : U32)
    (hlen : cached.syntheticTransfers.length < 2 ^ 64) :
    ShowsTransfers cached ledger limit
      (cached.syntheticTransfers.filter fun t => passesField ledger t.ledger) := by
  have hle := List.length_filter_le (fun t => passesField ledger t.ledger)
    cached.syntheticTransfers
  refine ⟨fun page => _, fun page => rfl, fun n hn => ?_, fun page => ?_⟩
  · have hpages := flatMap_pages syntheticToProto (pageLimit limit)
      (cached.syntheticTransfers.filter fun t => passesField ledger t.ledger) hn
    exact (congrArg (List.mapM SyntheticTransferRecord.shown) hpages).trans (mapM_shown _)
  · exact (BitVec.toNat_ofNat _ _).trans (Nat.mod_eq_of_lt (hle.trans_lt hlen))

/-! ## Plans of rearranged accounts -/

/-- One timestamp, and one account if either holds a balance. -/
def SameIfHeld (a b : Account) : Prop :=
  a.timestamp = b.timestamp ∧ (hasBalance a ∨ hasBalance b → a = b)

/-- An account that holds a balance shares its timestamp with no other account. -/
def HeldApart (accounts : List Account) : Prop :=
  ∀ a ∈ accounts, hasBalance a → ∀ b ∈ accounts, b.timestamp = a.timestamp → b = a

instance (accounts : List Account) : Decidable (HeldApart accounts) :=
  inferInstanceAs (Decidable (∀ a ∈ accounts, _ → ∀ b ∈ accounts, _ → _))

section Rearranged

variable {as bs accounts accounts' : List Account}

theorem forall₂_sameIfHeld (hkeys : as.map orderKey = bs.map orderKey)
    (h : ∀ a ∈ as, ∀ b ∈ bs, a.timestamp = b.timestamp → SameIfHeld a b) :
    List.Forall₂ SameIfHeld as bs := by
  induction as generalizing bs with
  | nil =>
      rw [List.map_nil, eq_comm, List.map_eq_nil_iff] at hkeys
      rw [hkeys]
      exact .nil
  | cons a as ih =>
      cases bs with
      | nil => cases hkeys
      | cons b bs =>
          rw [List.map_cons, List.map_cons, List.cons.injEq] at hkeys
          have htime : a.timestamp = b.timestamp :=
            BitVec.eq_of_toNat_eq (congrArg (fun k => (ofLex k).1) hkeys.1)
          refine .cons (h a List.mem_cons_self b List.mem_cons_self htime) (ih hkeys.2 ?_)
          exact fun a' ha' b' hb' =>
            h a' (List.mem_cons_of_mem a ha') b' (List.mem_cons_of_mem b hb')

/-- In the order of the import the accounts with a balance stand at the same places. -/
theorem importOrder_sameIfHeld (hperm : accounts.Perm accounts') (h : HeldApart accounts) :
    List.Forall₂ SameIfHeld (importOrder accounts) (importOrder accounts') := by
  have hsort := importOrder_stablySorted accounts
  have hsort' := importOrder_stablySorted accounts'
  refine forall₂_sameIfHeld ?_ fun a ha b hb htime => ⟨htime, ?_⟩
  · have hkeys := (hsort.perm.trans (hperm.trans hsort'.perm.symm)).map orderKey
    refine List.Perm.eq_of_pairwise (fun _ _ _ _ => le_antisymm) ?_ ?_ hkeys
    · exact List.pairwise_map.2 hsort.sorted
    · exact List.pairwise_map.2 hsort'.sorted
  · rw [hsort.mem_iff] at ha
    rw [hsort'.mem_iff, ← hperm.mem_iff] at hb
    rintro (hheld | hheld)
    · exact (h a ha hheld b hb htime.symm).symm
    · exact h b hb hheld a ha htime

theorem bumpTimestamps_sameIfHeld (prof : Profile) (h : List.Forall₂ SameIfHeld as bs)
    (prevTs : U64) :
    Option.Rel (List.Forall₂ SameIfHeld) (bumpTimestamps prof prevTs as)
      (bumpTimestamps prof prevTs bs) := by
  induction h generalizing prevTs with
  | nil => exact .some .nil
  | @cons a b as bs hab _ ih =>
      rw [bumpTimestamps, bumpTimestamps, hab.1]
      cases hts : bump prof prevTs b.timestamp with
      | none => exact .none
      | some ts =>
          have hrest := ih ts
          simp only [Option.bind_eq_bind, Option.bind_some]
          generalize bumpTimestamps prof ts as = as', bumpTimestamps prof ts bs = bs' at hrest ⊢
          cases hrest with
          | none => exact .none
          | some hrest =>
              refine .some (.cons ⟨rfl, fun hheld => ?_⟩ hrest)
              rw [hab.2 hheld]

theorem filter_hasBalance_eq (h : List.Forall₂ SameIfHeld as bs) :
    as.filter hasBalance = bs.filter hasBalance := by
  induction h with
  | nil => rfl
  | @cons a b as bs hab _ ih =>
      by_cases hheld : hasBalance a ∨ hasBalance b
      · rw [hab.2 hheld, List.filter_cons, List.filter_cons, ih]
      · rw [not_or] at hheld
        rw [List.filter_cons_of_neg hheld.1, List.filter_cons_of_neg hheld.2, ih]

theorem transferTsFloor_eq (h : List.Forall₂ SameIfHeld as bs) (windowedMode : Bool)
    (genesisMaxTs : U64) :
    transferTsFloor windowedMode genesisMaxTs as =
      transferTsFloor windowedMode genesisMaxTs bs := by
  have hlast : as.getLast?.map Account.timestamp = bs.getLast?.map Account.timestamp := by
    rw [← List.getLast?_map, ← List.getLast?_map]
    congr 1
    exact List.forall₂_eq_eq_eq ▸ (List.forall₂_map_left_iff.2
      (List.forall₂_map_right_iff.2 (h.imp fun _ _ hab => hab.1)))
  unfold transferTsFloor
  rw [filter_hasBalance_eq h, hlast]

theorem emitAccount_of_not_held (prof : Profile) {gen : HashMap U32 (U128 × U128)} {a : Account}
    (hgen : (gen.lookup a.ledger).isSome) (h : hasBalance a = false) (e : Emission) :
    emitAccount prof gen e a = some e := by
  obtain ⟨ids, hids⟩ := Option.isSome_iff_exists.1 hgen
  simp only [hasBalance, Bool.or_eq_false_iff, decide_eq_false_iff_not] at h
  simp only [emitAccount, hids, Emission.pushPositive, h, if_false, Option.bind_eq_bind,
    Option.bind_some]

theorem foldlM_emitAccount_filter (prof : Profile) {gen : HashMap U32 (U128 × U128)}
    (hgen : ∀ a ∈ as, (gen.lookup a.ledger).isSome) (e : Emission) :
    as.foldlM (emitAccount prof gen) e =
      (as.filter hasBalance).foldlM (emitAccount prof gen) e := by
  induction as generalizing e with
  | nil => rfl
  | cons a as ih =>
      rw [List.forall_mem_cons] at hgen
      cases hheld : hasBalance a with
      | true =>
          rw [List.filter_cons_of_pos hheld, List.foldlM_cons, List.foldlM_cons]
          congr 1
          funext e'
          exact ih hgen.2 e'
      | false =>
          have hnot : ¬ hasBalance a = true := Bool.eq_false_iff.1 hheld
          rw [List.filter_cons_of_neg hnot, List.foldlM_cons,
            emitAccount_of_not_held prof hgen.1 hheld]
          exact ih hgen.2 e

theorem lookup_isSome_of_bumped {prof : Profile} {prevTs : U64} {regular : List Account}
    (ord : IterOrder U32 (List Account))
    (h : bumpTimestamps prof prevTs (importOrder accounts) = some regular) :
    ∀ a ∈ regular, ((genesisByLedger (groups ord accounts)).lookup a.ledger).isSome := by
  have hperm : (regular.map Account.untimed).Perm (accounts.map Account.untimed) := by
    rw [bumpTimestamps_untimed h]
    exact (importOrder_perm accounts).map _
  intro a ha
  rw [lookup_of_bumped hperm a ha]
  rfl

/-- The synthetic transfers do not depend on the order of the accounts. -/
theorem buildSnapshotImpl_synthetics (prof : Profile) (ord ord' : IterOrder U32 (List Account))
    (hperm : accounts.Perm accounts') (h : HeldApart accounts) (windowedMode : Bool) :
    (buildSnapshotImpl prof ord accounts windowedMode).map BalancePlan.syntheticTransfers =
      (buildSnapshotImpl prof ord' accounts' windowedMode).map BalancePlan.syntheticTransfers := by
  have hgenesis := @genesisAccountsOf_eq ord ord' accounts accounts' hperm
  have hledgers := @genesisByLedger_eq ord ord' accounts accounts' hperm
  unfold buildSnapshotImpl
  simp only [sorted_eq_importOrder, hgenesis]
  generalize BitVec.ofNat 64 (genesisAccountsOf (groups ord' accounts')).length = start
  have hbumped := bumpTimestamps_sameIfHeld prof (importOrder_sameIfHeld hperm h) start
  have hknown := fun regular => @lookup_isSome_of_bumped accounts prof start regular ord
  have hknown' := fun regular => @lookup_isSome_of_bumped accounts' prof start regular ord'
  generalize bumpTimestamps prof start (importOrder accounts) = bumped at hbumped hknown ⊢
  generalize bumpTimestamps prof start (importOrder accounts') = bumped' at hbumped hknown' ⊢
  cases hbumped with
  | none => rfl
  | @some regular regular' hregular =>
      have hfold := foldlM_emitAccount_filter prof (hknown regular rfl)
      have hfold' := foldlM_emitAccount_filter prof (hknown' regular' rfl)
      simp only [hledgers, filter_hasBalance_eq hregular] at hfold
      simp only [Option.bind_eq_bind, Option.bind_some, hledgers, hfold, hfold',
        transferTsFloor_eq hregular, Option.map_bind]
      rfl

theorem hasBalance_of_adjusted {debitDelta creditDelta : HashMap U128 U128} {cutoffTs : U64}
    {a : Account} (h : hasBalance (adjustAccount debitDelta creditDelta cutoffTs a)) :
    hasBalance a := by
  have hdebits := adjustAccount_debits debitDelta creditDelta cutoffTs a
  have hcredits := adjustAccount_credits debitDelta creditDelta cutoffTs a
  simp only [hasBalance, Bool.or_eq_true, decide_eq_true_eq, BitVec.lt_def] at h ⊢
  split_ifs at hdebits hcredits <;> omega

theorem HeldApart.adjusted (h : HeldApart accounts) (debitDelta creditDelta : HashMap U128 U128)
    (cutoffTs : U64) :
    HeldApart (accounts.map (adjustAccount debitDelta creditDelta cutoffTs)) := by
  intro a' ha' hheld b' hb' htime
  obtain ⟨a, ha, rfl⟩ := List.mem_map.1 ha'
  obtain ⟨b, hb, rfl⟩ := List.mem_map.1 hb'
  rw [adjustAccount_timestamp, adjustAccount_timestamp] at htime
  rw [h a ha (hasBalance_of_adjusted hheld) b hb htime]

theorem buildWindowed_synthetics (prof : Profile) (ord ord' : IterOrder U32 (List Account))
    (hperm : accounts.Perm accounts') (h : HeldApart accounts) (windowed : List Transfer)
    (cutoffTs : U64) :
    (buildWindowed prof ord accounts windowed cutoffTs).map BalancePlan.syntheticTransfers =
      (buildWindowed prof ord' accounts' windowed cutoffTs).map
        BalancePlan.syntheticTransfers := by
  unfold buildWindowed
  cases windowDeltas prof windowed with
  | none => rfl
  | some deltas =>
      have hsame := buildSnapshotImpl_synthetics prof ord ord'
        (hperm.map (adjustAccount deltas.1 deltas.2 cutoffTs))
        (h.adjusted deltas.1 deltas.2 cutoffTs) true
      simp only [Option.bind_eq_bind, Option.bind_some, Option.map_bind, Function.comp_def,
        Option.map_some]
      rwa [Option.map_eq_bind, Option.map_eq_bind] at hsame

end Rearranged

/-! ## Two readings of one file -/

section Readings

variable {orders orders' : HashOrders} {file file' : FileReads} {cutoffTs : U64}
  {accounts accounts' : List Account} {windowed windowed' : List Transfer}

theorem readAllTransfersSince_sorted {ord : IterOrder U128 Transfer}
    (h : readAllTransfersSince ord file.transfers cutoffTs = .ok windowed) :
    windowed.Pairwise fun t u => t.timestamp.toNat ≤ u.timestamp.toNat := by
  obtain ⟨_, -, h⟩ := exceptBind_eq_ok_iff.1 h
  obtain ⟨lsm, -, h⟩ := exceptBind_eq_ok_iff.1 h
  obtain ⟨wal, -, h⟩ := exceptBind_eq_ok_iff.1 h
  cases h
  exact (sortByTimestamp_stablySorted _).sorted

/-- The sort undoes the order in which the transfers of a window were read. -/
theorem window_eq_of_perm
    (h : readAllTransfersSince orders.transfers file.transfers cutoffTs = .ok windowed)
    (h' : readAllTransfersSince orders'.transfers file'.transfers cutoffTs = .ok windowed')
    (hperm : windowed.Perm windowed') (hdistinct : (windowed.map Transfer.timestamp).Nodup) :
    windowed = windowed' := by
  refine List.Perm.eq_of_pairwise (fun t u ht hu htu hut => ?_) (readAllTransfersSince_sorted h)
    (readAllTransfersSince_sorted h') hperm
  exact List.inj_on_of_nodup_map hdistinct ht (hperm.mem_iff.2 hu)
    (BitVec.eq_of_toNat_eq (le_antisymm htu hut))

/-- Both readings of the window give the same transfers, each at an instant of its own. -/
structure SameWindow (orders orders' : HashOrders) (file file' : FileReads) (cutoffTs : U64)
    (windowed windowed' : List Transfer) : Prop where
  read : readAllTransfersSince orders.transfers file.transfers cutoffTs = .ok windowed
  read' : readAllTransfersSince orders'.transfers file'.transfers cutoffTs = .ok windowed'
  perm : windowed.Perm windowed'
  distinct : (windowed.map Transfer.timestamp).Nodup

theorem buildCounted_transfers {prof : Profile} {plan plan' : BalancePlan} {count count' : U64}
    (hperm : accounts.Perm accounts') (hheld : HeldApart accounts)
    (hwindow : 0 < cutoffTs → SameWindow orders orders' file file' cutoffTs windowed windowed')
    (h : buildCounted prof orders file cutoffTs accounts = some (.ok (plan, count)))
    (h' : buildCounted prof orders' file' cutoffTs accounts' = some (.ok (plan', count'))) :
    plan.syntheticTransfers = plan'.syntheticTransfers ∧
      plan.windowedTransfers = plan'.windowedTransfers := by
  unfold buildCounted at h h'
  by_cases hcutoff : 0 < cutoffTs
  · obtain ⟨hread, hread', hsamePerm, htimes⟩ := hwindow hcutoff
    have hsameWindow := window_eq_of_perm hread hread' hsamePerm htimes
    rw [if_pos hcutoff, hread] at h
    rw [if_pos hcutoff, hread', ← hsameWindow] at h'
    obtain ⟨_, hplan, ⟨⟩⟩ := Option.map_eq_some_iff.1 h
    obtain ⟨_, hplan', ⟨⟩⟩ := Option.map_eq_some_iff.1 h'
    have hsame := buildWindowed_synthetics prof orders.ledgers orders'.ledgers hperm hheld windowed
      cutoffTs
    rw [hplan, hplan', Option.map_some, Option.map_some, Option.some.injEq] at hsame
    obtain ⟨_, _, hwindowed, -⟩ := buildWindowed_timeline hplan
    obtain ⟨_, _, hwindowed', -⟩ := buildWindowed_timeline hplan'
    exact ⟨hsame, hwindowed.trans hwindowed'.symm⟩
  · rw [if_neg hcutoff] at h h'
    obtain ⟨_, hplan, ⟨⟩⟩ := Option.map_eq_some_iff.1 h
    obtain ⟨_, hplan', ⟨⟩⟩ := Option.map_eq_some_iff.1 h'
    have hsame := buildSnapshotImpl_synthetics prof orders.ledgers orders'.ledgers hperm hheld false
    unfold build at hplan hplan'
    rw [hplan, hplan', Option.map_some, Option.map_some, Option.some.injEq] at hsame
    have hsized : Sized accounts windowed cutoffTs plan := build_sized hcutoff hplan
    have hsized' : Sized accounts' windowed' cutoffTs plan' := build_sized hcutoff hplan'
    have hnone := hsized.window
    have hnone' := hsized'.window
    rw [windowedCount, if_neg hcutoff, List.length_eq_zero_iff] at hnone hnone'
    exact ⟨hsame, hnone.trans hnone'.symm⟩

theorem executeMigrationPlan_built {prof : Profile} {plan : BalancePlan}
    (h : executeMigrationPlan prof orders file cutoffTs false = some (.ok plan)) :
    ∃ accounts count, readAllAccounts orders.accounts file.accounts = .ok accounts ∧
      buildCounted prof orders file cutoffTs accounts = some (.ok (plan, count)) := by
  unfold executeMigrationPlan at h
  cases hread : readAllAccounts orders.accounts file.accounts with
  | error e =>
      rw [hread] at h
      cases h
  | ok accounts =>
      simp only [hread, Bool.false_eq_true, if_false] at h
      split_ifs at h
      · cases h
      · rw [buildFor_eq_map, Option.map_map, Option.map_eq_some_iff] at h
        obtain ⟨built, hbuilt, hplan⟩ := h
        cases built with
        | error e => cases hplan
        | ok built =>
            cases hplan
            exact ⟨accounts, built.2, rfl, hbuilt⟩

end Readings

/-! ## What is shown and what is submitted -/

/-- Where both readings give the same accounts and the same window, in whatever order: if an account
that holds a balance shares its timestamp with no other account, and no two transfers of the window
share one, then the pages show the synthetic transfers that the migration submits, of every ledger
and in pages of every size, and it replays the cached window. -/
theorem preview_submitted {prof : Profile} {orders orders' : HashOrders} {file file' : FileReads}
    {cutoffTs : U64} {accounts accounts' : List Account} {windowed windowed' : List Transfer}
    (hread : readAllAccounts orders.accounts file.accounts = .ok accounts)
    (hread' : readAllAccounts orders'.accounts file'.accounts = .ok accounts')
    (hperm : accounts.Perm accounts') (hlen : FitsVec accounts) (hheld : HeldApart accounts)
    (hwindow : 0 < cutoffTs → SameWindow orders orders' file file' cutoffTs windowed windowed')
    {response : PlanMigrationResponse} {cached : CachedMigrationPlan} {plan : BalancePlan}
    (hplanned : planMigration prof orders file cutoffTs = some (.ok (response, cached)))
    (hexecuted : executeMigrationPlan prof orders' file' cutoffTs false = some (.ok plan)) :
    (∀ ledger limit, ShowsTransfers cached ledger limit
      (plan.syntheticTransfers.filter fun t => passesField ledger t.ledger)) ∧
    plan.windowedTransfers = cached.windowedTransfers := by
  obtain ⟨again, count', hagain, hbuilt'⟩ := executeMigrationPlan_built hexecuted
  rw [hread', Except.ok.injEq] at hagain
  subst hagain
  simp only [planMigration, hread, Option.bind_eq_bind, Option.bind_eq_some_iff] at hplanned
  obtain ⟨ledgers, -, built, hbuilt, hcached⟩ := hplanned
  obtain ⟨shown, rfl, hsized⟩ := buildCounted_sized (fun hcutoff => (hwindow hcutoff).read) hbuilt
  cases hcached
  obtain ⟨hsynthetics, hwindowed⟩ := buildCounted_transfers hperm hheld hwindow hbuilt hbuilt'
  have hfew : shown.syntheticTransfers.length < 2 ^ 64 := by
    have hcount := @syntheticCount_le accounts windowed cutoffTs
    rw [hsized.synthetic]
    unfold FitsVec at hlen
    omega
  rw [← hsynthetics]
  exact ⟨fun ledger limit => showsTransfers _ ledger limit hfew, hwindowed.symm⟩

/-- Two accounts that the log creates, without a timestamp, and two of the tables. -/
def loggedPair : FileReads where
  accounts := .ok (.ofRecords [.holding 7 1 100 0 1, .holding 8 1 0 100 2]
    [.holding 9 2 0 0 0, .holding 10 1 0 0 0])
  transfers := .ok (.ofRecords [.moving 5 7 8 30 1 0 12] [])

/-- The same file, its tables visited the other way round. -/
def loggedPairAgain : FileReads where
  accounts := .ok (.ofRecords [.holding 8 1 0 100 2, .holding 7 1 100 0 1]
    [.holding 9 2 0 0 0, .holding 10 1 0 0 0])
  transfers := loggedPair.transfers

def pairAccounts : List Account :=
  [.holding 10 1 0 0 0, .holding 9 2 0 0 0, .holding 8 1 0 100 2, .holding 7 1 100 0 1]

def pairResponse : PlanMigrationResponse where
  accounts := 4
  pendingTransfers := 0
  syntheticTransfers := 2
  safe := true
  ledgers := 2
  ledgerSummaries := [⟨1, 3, "100", "100"⟩, ⟨2, 1, "0", "0"⟩]
  pendingAccounts := []
  windowedTransfers := 1

def pairPreview : CachedMigrationPlan where
  accounts := pairAccounts
  syntheticTransfers :=
    [⟨1, 7, genesisDebitId 1, 70, 1, 999, 9⟩, ⟨2, genesisCreditId 1, 8, 70, 1, 999, 10⟩]
  windowedTransfers := [.moving 5 7 8 30 1 0 12]

def pairExecution : BalancePlan where
  genesisAccounts :=
    [genesisAccount (genesisCreditId 1) 1 1, genesisAccount (genesisDebitId 1) 1 2,
      genesisAccount (genesisCreditId 2) 2 3, genesisAccount (genesisDebitId 2) 2 4]
  regularAccounts := [.holding 10 1 0 0 5, .holding 9 2 0 0 6, .holding 7 1 70 0 7,
    .holding 8 1 0 70 8]
  syntheticTransfers := pairPreview.syntheticTransfers
  windowedTransfers := pairPreview.windowedTransfers

theorem preview_submitted_pair :
    planMigration .release ⟨.stored, .stored, .stored⟩ loggedPair 10 =
        some (.ok (pairResponse, pairPreview)) ∧
    executeMigrationPlan .release ⟨.reversed, .reversed, .reversed⟩ loggedPairAgain 10 false =
        some (.ok pairExecution) ∧
    (∀ ledger limit, ShowsTransfers pairPreview ledger limit
      (pairExecution.syntheticTransfers.filter fun t => passesField ledger t.ledger)) ∧
    pairExecution.windowedTransfers = pairPreview.windowedTransfers :=
  have hplanned : planMigration .release ⟨.stored, .stored, .stored⟩ loggedPair 10 =
      some (.ok (pairResponse, pairPreview)) := by decide +kernel
  have hexecuted : executeMigrationPlan .release ⟨.reversed, .reversed, .reversed⟩ loggedPairAgain
      10 false = some (.ok pairExecution) := by decide +kernel
  have hread : readAllAccounts .stored loggedPair.accounts = .ok pairAccounts := by decide +kernel
  have hread' : readAllAccounts .reversed loggedPairAgain.accounts =
      .ok [.holding 8 1 0 100 2, .holding 7 1 100 0 1, .holding 9 2 0 0 0, .holding 10 1 0 0 0] := by
    decide +kernel
  have hwindow : SameWindow ⟨.stored, .stored, .stored⟩ ⟨.reversed, .reversed, .reversed⟩ loggedPair
      loggedPairAgain 10 [.moving 5 7 8 30 1 0 12] [.moving 5 7 8 30 1 0 12] :=
    ⟨by decide +kernel, by decide +kernel, .refl _, by decide⟩
  ⟨hplanned, hexecuted, preview_submitted hread hread' (by decide) (by decide) (by decide)
    (fun _ => hwindow) hplanned hexecuted⟩

end TbManager
