import TbManager.CsvReplay

/-!
# The batches of an import

`import_all_with_progress` submits a plan in four phases, each in batches of at
most `BATCH_SIZE` records. A progress message follows each accepted batch.
-/

namespace TbManager

/-- `slice::chunks`: consecutive pieces of `n` elements, the last one shorter. -/
def chunks {α : Type*} (n : ℕ) (xs : List α) : List (List α) :=
  (List.range ((xs.length + n - 1) / n)).map fun i => (xs.drop (i * n)).take n

section Chunks

variable {α : Type*} {n : ℕ}

theorem flatten_take_drop (n : ℕ) (xs : List α) (k : ℕ) :
    ((List.range k).map fun i => (xs.drop (i * n)).take n).flatten = xs.take (k * n) := by
  induction k with
  | zero => simp
  | succ k ih =>
      rw [List.range_succ, List.map_append, List.flatten_append, ih, Nat.succ_mul, List.take_add]
      simp

theorem chunks_flatten (hn : 0 < n) (xs : List α) : (chunks n xs).flatten = xs := by
  rw [chunks, flatten_take_drop]
  apply List.take_of_length_le
  have hmod := Nat.div_add_mod (xs.length + n - 1) n
  have hlt := Nat.mod_lt (xs.length + n - 1) hn
  rw [Nat.mul_comm] at hmod
  omega

end Chunks

inductive CompressorError where
  | client (message : String)
  | accountCreationFailed (count : ℕ)
  | transferCreationFailed (count : ℕ)
  deriving DecidableEq, Repr

namespace CompressorError

def message : CompressorError → String
  | client m => "TigerBeetle client error: " ++ m
  | accountCreationFailed count => "failed to create " ++ toString count ++ " account(s)"
  | transferCreationFailed count => "failed to create " ++ toString count ++ " transfer(s)"

theorem message_ne_empty (e : CompressorError) : e.message ≠ "" := by
  intro h
  unfold message at h
  split at h
  · have hprefix := (String.append_eq_empty_iff.1 h).1
    simp at hprefix
  · have hsuffix := (String.append_eq_empty_iff.1 h).2
    simp at hsuffix
  · have hsuffix := (String.append_eq_empty_iff.1 h).2
    simp at hsuffix

end CompressorError

inductive Request where
  | createAccounts (accounts : List Account)
  | createTransfers (transfers : List Transfer)
  deriving DecidableEq, Repr

/-- What the client returns: an error of the call, or the number of records that were
refused. -/
inductive Reply where
  | error (e : String)
  | results (count : ℕ)
  deriving DecidableEq, Repr

namespace Request

def events : Request → List Event
  | createAccounts accounts => accounts.map .createAccount
  | createTransfers transfers => transfers.map .createTransfer

/-- The error that ends the import at a reply; `none` for an accepted batch. -/
def failure : Request → Reply → Option CompressorError
  | createAccounts _, .error e => some (.client ("create_accounts: " ++ e))
  | createAccounts _, .results count =>
    if count = 0 then none else some (.accountCreationFailed count)
  | createTransfers _, .error e => some (.client ("create_transfers: " ++ e))
  | createTransfers _, .results count =>
    if count = 0 then none else some (.transferCreationFailed count)

end Request

structure ImportProgress where
  phase : String
  imported : U64
  total : U64
  deriving DecidableEq, Repr

structure Batch where
  request : Request
  progress : ImportProgress
  deriving DecidableEq, Repr

namespace BalancePlan

def batchSize : ℕ := 8000

/-- The batches of one phase after `imported` records of it. The count does not exceed the
total, so it does not overflow. -/
def phaseBatches {α : Type*} (phase : String) (request : List α → Request) (total : U64) :
    U64 → List (List α) → List Batch
  | _, [] => []
  | imported, chunk :: rest =>
    let imported' := imported + BitVec.ofNat 64 chunk.length
    ⟨request chunk, ⟨phase, imported', total⟩⟩ ::
      phaseBatches phase request total imported' rest

def phase {α : Type*} (name : String) (request : List α → Request) (records : List α) :
    List Batch :=
  phaseBatches name request (BitVec.ofNat 64 records.length) 0 (chunks batchSize records)

def accountRequest (accounts : List Account) : Request :=
  .createAccounts (accounts.map fun a => convertAccount a true)

def genesisBatches (plan : BalancePlan) : List Batch :=
  phase "genesis_accounts" accountRequest plan.genesisAccounts

def accountBatches (plan : BalancePlan) : List Batch :=
  phase "accounts" accountRequest plan.regularAccounts

def syntheticRequest (transfers : List SyntheticTransfer) : Request :=
  .createTransfers (transfers.map convertTransfer)

def windowedRequest (transfers : List Transfer) : Request :=
  .createTransfers (transfers.map convertWindowedTransfer)

def syntheticBatches (plan : BalancePlan) : List Batch :=
  phase "synthetic_transfers" syntheticRequest plan.syntheticTransfers

def windowedBatches (plan : BalancePlan) : List Batch :=
  phase "windowed_transfers" windowedRequest plan.windowedTransfers

/-- The batches of `import_all_with_progress`, in the order of their submission. -/
def batches (plan : BalancePlan) : List Batch :=
  plan.genesisBatches ++ plan.accountBatches ++ plan.syntheticBatches ++ plan.windowedBatches

def events (plan : BalancePlan) : List Event :=
  ((plan.genesisAccounts ++ plan.regularAccounts).map fun a =>
    Event.createAccount (convertAccount a true)) ++
    plan.submittedTransfers.map Event.createTransfer

theorem phaseBatches_requests {α : Type*} (name : String) (request : List α → Request)
    (total imported : U64) (pieces : List (List α)) :
    (phaseBatches name request total imported pieces).map Batch.request = pieces.map request := by
  induction pieces generalizing imported with
  | nil => rfl
  | cons chunk rest ih => rw [phaseBatches, List.map_cons, List.map_cons, ih]

theorem phase_events {α : Type*} (name : String) {request : List α → Request} {f : α → Event}
    (hrequest : ∀ xs, (request xs).events = xs.map f) (records : List α) :
    (phase name request records).flatMap (fun b => b.request.events) = records.map f := by
  have hbatches : (phase name request records).flatMap (fun b => b.request.events) =
      ((phase name request records).map Batch.request).flatMap Request.events := by
    rw [List.flatMap_map]
  rw [hbatches, phase, phaseBatches_requests, List.flatMap_map]
  calc
    _ = ((chunks batchSize records).map (List.map f)).flatten := by
      rw [List.flatMap_def]
      congr 1
      exact List.map_congr_left fun xs _ => hrequest xs
    _ = records.map f := by
      rw [← List.map_flatten, chunks_flatten (by decide)]

/-- The batches submit every record of the plan once, in the order of the phases. -/
theorem batches_events (plan : BalancePlan) :
    plan.batches.flatMap (fun b => b.request.events) = plan.events := by
  have haccounts : ∀ xs : List Account, (accountRequest xs).events =
      xs.map fun a => Event.createAccount (convertAccount a true) :=
    fun xs => List.map_map
  have hsynthetic : ∀ xs : List SyntheticTransfer, (syntheticRequest xs).events =
      xs.map (Event.createTransfer ∘ convertTransfer) :=
    fun xs => List.map_map
  have hwindowed : ∀ xs : List Transfer, (windowedRequest xs).events =
      xs.map (Event.createTransfer ∘ convertWindowedTransfer) :=
    fun xs => List.map_map
  rw [batches, List.flatMap_append, List.flatMap_append, List.flatMap_append, genesisBatches,
    accountBatches, syntheticBatches, windowedBatches, phase_events _ haccounts,
    phase_events _ haccounts, phase_events _ hsynthetic, phase_events _ hwindowed, events,
    submittedTransfers, List.map_append, List.map_append, List.map_map, List.map_map,
    List.append_assoc]

end BalancePlan

end TbManager
