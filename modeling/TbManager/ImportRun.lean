import TbManager.ImportPhases

/-!
# The run of an import

`import_all_with_progress` as it runs against a client with arbitrary replies:
four loops with their own counters and early returns. Together they submit the
batches of the plan one after the other until one fails.
-/

namespace TbManager

structure ImportRun where
  submitted : List Request
  progress : List ImportProgress
  deriving DecidableEq, Repr

/-- A part of the import: what it adds to the run and whether it returns early. No value is
a panic. -/
abbrev ImportStep := ImportRun → Option (ImportRun × Except CompressorError Unit)

namespace ImportRun

def start : ImportRun := ⟨[], []⟩

def submit (run : ImportRun) (request : Request) : ImportRun :=
  { run with submitted := run.submitted ++ [request] }

def report (run : ImportRun) (p : ImportProgress) : ImportRun :=
  { run with progress := run.progress ++ [p] }

end ImportRun

/-- The second part runs unless the first has returned an error. -/
def ImportStep.andThen (first second : ImportStep) : ImportStep := fun run => do
  let (run', result) ← first run
  match result with
  | .ok () => second run'
  | .error e => some (run', .error e)

section Loops

variable (prof : Profile) (replies : ℕ → Reply)

/-- The loop of a phase over its remaining chunks; the reply to the `k`-th request of the import
is `replies k`. -/
def submitChunks {α : Type*} (name : String) (request : List α → Request) (total : U64) :
    U64 → List (List α) → ImportStep
  | _, [], run => some (run, .ok ())
  | imported, chunk :: rest, run =>
    match (request chunk).failure (replies run.submitted.length) with
    | some e => some (run.submit (request chunk), .error e)
    | none => do
      let imported' ← prof.add imported (BitVec.ofNat 64 chunk.length)
      submitChunks name request total imported' rest
        ((run.submit (request chunk)).report ⟨name, imported', total⟩)

def submitPhase {α : Type*} (name : String) (request : List α → Request) (records : List α) :
    ImportStep :=
  submitChunks prof replies name request (BitVec.ofNat 64 records.length) 0
    (chunks BalancePlan.batchSize records)

namespace BalancePlan

def importAllWithProgress (plan : BalancePlan) :
    Option (ImportRun × Except CompressorError Unit) :=
  let genesis := submitPhase prof replies "genesis_accounts" accountRequest plan.genesisAccounts
  let accounts := submitPhase prof replies "accounts" accountRequest plan.regularAccounts
  let synthetic :=
    submitPhase prof replies "synthetic_transfers" syntheticRequest plan.syntheticTransfers
  let windowed : ImportStep :=
    if plan.windowedTransfers.isEmpty then fun run => some (run, .ok ())
    else submitPhase prof replies "windowed_transfers" windowedRequest plan.windowedTransfers
  ((genesis.andThen accounts).andThen synthetic).andThen windowed .start

structure FitsVecs (plan : BalancePlan) : Prop where
  genesisAccounts : FitsVec plan.genesisAccounts
  regularAccounts : FitsVec plan.regularAccounts
  syntheticTransfers : FitsVec plan.syntheticTransfers
  windowedTransfers : FitsVec plan.windowedTransfers

end BalancePlan

/-! ## Submitting batches until one fails -/

def submitBatches : List Batch → ImportRun → ImportRun × Except CompressorError Unit
  | [], run => (run, .ok ())
  | b :: rest, run =>
    match b.request.failure (replies run.submitted.length) with
    | some e => (run.submit b.request, .error e)
    | none => submitBatches rest ((run.submit b.request).report b.progress)

theorem submitBatches_append (xs ys : List Batch) (run : ImportRun) :
    submitBatches replies (xs ++ ys) run =
      match submitBatches replies xs run with
      | (run', .ok ()) => submitBatches replies ys run'
      | (run', .error e) => (run', .error e) := by
  induction xs generalizing run with
  | nil => rfl
  | cons b xs ih =>
      rw [List.cons_append, submitBatches, submitBatches]
      cases b.request.failure (replies run.submitted.length) with
      | some e => rfl
      | none => exact ih _

variable {prof replies}

theorem submitChunks_eq {α : Type*} (name : String) (request : List α → Request) (total : U64)
    {imported : U64} {pieces : List (List α)}
    (hfits : imported.toNat + pieces.flatten.length < 2 ^ 64) (run : ImportRun) :
    submitChunks prof replies name request total imported pieces run =
      some (submitBatches replies
        (BalancePlan.phaseBatches name request total imported pieces) run) := by
  induction pieces generalizing imported run with
  | nil => rfl
  | cons chunk rest ih =>
      rw [List.flatten_cons, List.length_append] at hfits
      have hchunk : (BitVec.ofNat 64 chunk.length).toNat = chunk.length := by
        rw [BitVec.toNat_ofNat]
        exact Nat.mod_eq_of_lt (by omega)
      have hlt : imported.toNat + (BitVec.ofNat 64 chunk.length).toNat < 2 ^ 64 := by
        rw [hchunk]
        omega
      rw [submitChunks, BalancePlan.phaseBatches, submitBatches]
      cases (request chunk).failure (replies run.submitted.length) with
      | some e => rfl
      | none =>
          have hrest : (imported + BitVec.ofNat 64 chunk.length).toNat + rest.flatten.length <
              2 ^ 64 := by
            rw [BitVec.toNat_add_of_lt hlt, hchunk]
            omega
          change (prof.add imported (BitVec.ofNat 64 chunk.length)).bind _ = _
          rw [prof.add_of_lt hlt, Option.bind_some]
          exact ih hrest _

theorem submitPhase_eq {α : Type*} (name : String) (request : List α → Request)
    {records : List α} (hfits : FitsVec records) (run : ImportRun) :
    submitPhase prof replies name request records run =
      some (submitBatches replies (BalancePlan.phase name request records) run) := by
  rw [submitPhase, BalancePlan.phase]
  apply submitChunks_eq
  rw [chunks_flatten (by decide), BitVec.ofNat_eq_ofNat, BitVec.toNat_zero, Nat.zero_add]
  exact lt_trans hfits (by norm_num)

theorem andThen_eq {first second : ImportStep} {xs ys : List Batch}
    (hfirst : ∀ run, first run = some (submitBatches replies xs run))
    (hsecond : ∀ run, second run = some (submitBatches replies ys run)) (run : ImportRun) :
    first.andThen second run = some (submitBatches replies (xs ++ ys) run) := by
  rw [ImportStep.andThen, hfirst, submitBatches_append]
  change (match submitBatches replies xs run with | (run', result) => _) = _
  rcases submitBatches replies xs run with ⟨run', result⟩
  cases result with
  | ok _ => exact hsecond run'
  | error e => rfl

theorem BalancePlan.importAllWithProgress_eq {plan : BalancePlan} (hfits : plan.FitsVecs) :
    plan.importAllWithProgress prof replies =
      some (submitBatches replies plan.batches .start) := by
  have hwindowed (run : ImportRun) :
      (if plan.windowedTransfers.isEmpty then (fun run => some (run, .ok ()) : ImportStep)
        else submitPhase prof replies "windowed_transfers" windowedRequest
          plan.windowedTransfers) run =
        some (submitBatches replies plan.windowedBatches run) := by
    split_ifs with hempty
    · rw [windowedBatches, List.isEmpty_iff.1 hempty]
      rfl
    · exact submitPhase_eq _ _ hfits.windowedTransfers run
  rw [importAllWithProgress, batches]
  refine andThen_eq (andThen_eq (andThen_eq ?_ ?_) ?_) hwindowed _
  · exact submitPhase_eq _ _ hfits.genesisAccounts
  · exact submitPhase_eq _ _ hfits.regularAccounts
  · exact submitPhase_eq _ _ hfits.syntheticTransfers

end Loops

/-! ## Where the traversal stops -/

theorem Request.failure_eq_none_iff (r : Request) (reply : Reply) :
    r.failure reply = none ↔ reply = .results 0 := by
  cases r <;> cases reply <;> simp [failure]

/-- All batches are accepted, or the first that is not ends the import. -/
inductive Traversal (replies : ℕ → Reply) (batches : List Batch) :
    ImportRun × Except CompressorError Unit → Prop
  | finished (haccepted : ∀ k < batches.length, replies k = .results 0) :
      Traversal replies batches
        (⟨batches.map Batch.request, batches.map Batch.progress⟩, .ok ())
  | failed (accepted : List Batch) (b : Batch) (rest : List Batch) (e : CompressorError)
      (hbatches : batches = accepted ++ b :: rest)
      (haccepted : ∀ k < accepted.length, replies k = .results 0)
      (hfailure : b.request.failure (replies accepted.length) = some e) :
      Traversal replies batches
        (⟨accepted.map Batch.request ++ [b.request], accepted.map Batch.progress⟩, .error e)

theorem submitBatches_traversal {replies : ℕ → Reply} (done rest : List Batch)
    (haccepted : ∀ k < done.length, replies k = .results 0) :
    Traversal replies (done ++ rest)
      (submitBatches replies rest ⟨done.map Batch.request, done.map Batch.progress⟩) := by
  induction rest generalizing done with
  | nil =>
      rw [List.append_nil]
      exact .finished haccepted
  | cons b rest ih =>
      rw [submitBatches, List.length_map]
      cases hfailure : b.request.failure (replies done.length) with
      | some e => exact .failed done b rest e rfl haccepted hfailure
      | none =>
          have hmore := ih (done ++ [b]) (by
            intro k hk
            rw [List.length_append, List.length_singleton, Nat.lt_succ_iff_lt_or_eq] at hk
            rcases hk with hlt | rfl
            · exact haccepted k hlt
            · exact (b.request.failure_eq_none_iff _).1 hfailure)
          rw [List.append_assoc, List.singleton_append, List.map_append, List.map_append] at hmore
          exact hmore

theorem Traversal.submitted_isPrefix {replies : ℕ → Reply} {batches : List Batch}
    {outcome : ImportRun × Except CompressorError Unit} (h : Traversal replies batches outcome) :
    outcome.1.submitted <+: batches.map Batch.request := by
  cases h with
  | finished haccepted => exact List.prefix_rfl
  | failed accepted b rest e hbatches haccepted hfailure =>
      refine ⟨rest.map Batch.request, ?_⟩
      rw [hbatches, List.map_append, List.map_cons, List.append_assoc]
      rfl

theorem BalancePlan.importAllWithProgress_traversal (prof : Profile) (replies : ℕ → Reply)
    {plan : BalancePlan} (hfits : plan.FitsVecs) :
    ∃ outcome, plan.importAllWithProgress prof replies = some outcome ∧
      Traversal replies plan.batches outcome :=
  ⟨_, importAllWithProgress_eq hfits,
    submitBatches_traversal [] plan.batches fun _ hk => absurd hk (Nat.not_lt_zero _)⟩

/-! ## What the batches are -/

section Chunks

variable {α : Type*} {n : ℕ} {xs piece : List α}

theorem length_of_mem_chunks (hn : 0 < n) (h : piece ∈ chunks n xs) :
    0 < piece.length ∧ piece.length ≤ n := by
  obtain ⟨i, hi, rfl⟩ := List.mem_map.1 h
  have hmul : (i + 1) * n ≤ xs.length + n - 1 :=
    (Nat.le_div_iff_mul_le hn).1 (List.mem_range.1 hi)
  rw [Nat.add_mul, Nat.one_mul] at hmul
  rw [List.length_take, List.length_drop]
  omega

end Chunks

namespace BalancePlan

def phases (plan : BalancePlan) : List (String × List Request) :=
  [("genesis_accounts", (chunks batchSize plan.genesisAccounts).map accountRequest),
    ("accounts", (chunks batchSize plan.regularAccounts).map accountRequest),
    ("synthetic_transfers", (chunks batchSize plan.syntheticTransfers).map syntheticRequest),
    ("windowed_transfers", (chunks batchSize plan.windowedTransfers).map windowedRequest)]

def phaseRequests (plan : BalancePlan) : List (String × Request) :=
  plan.phases.flatMap fun p => p.2.map fun r => (p.1, r)

def recordCount (phase : String) (requests : List (String × Request)) : ℕ :=
  ((requests.filter fun r => r.1 = phase).flatMap fun r => r.2.events).length

end BalancePlan

def Batch.tagged (b : Batch) : String × Request := (b.progress.phase, b.request)

namespace BalancePlan

theorem recordCount_append (phase : String) (xs ys : List (String × Request)) :
    recordCount phase (xs ++ ys) = recordCount phase xs + recordCount phase ys := by
  rw [recordCount, List.filter_append, List.flatMap_append, List.length_append]
  rfl

theorem recordCount_tagged (phase : String) (bs cs : List Batch) :
    recordCount phase ((bs ++ cs).map Batch.tagged) =
      recordCount phase (bs.map Batch.tagged) + recordCount phase (cs.map Batch.tagged) := by
  rw [List.map_append, recordCount_append]

theorem recordCount_of_ne {phase : String} {xs : List (String × Request)}
    (h : ∀ r ∈ xs, r.1 ≠ phase) : recordCount phase xs = 0 := by
  have hnone : xs.filter (fun r => r.1 = phase) = [] := by
    apply List.filter_eq_nil_iff.2
    intro r hr
    rw [decide_eq_true_eq]
    exact h r hr
  rw [recordCount, hnone]
  rfl

theorem recordCount_cons {phase : String} (r : Request) (xs : List (String × Request)) :
    recordCount phase ((phase, r) :: xs) = r.events.length + recordCount phase xs := by
  rw [recordCount, List.filter_cons_of_pos (by simp), List.flatMap_cons, List.length_append]
  rfl

theorem phaseBatches_tagged {α : Type*} (name : String) (request : List α → Request)
    (total imported : U64) (pieces : List (List α)) :
    (phaseBatches name request total imported pieces).map Batch.tagged =
      pieces.map fun piece => (name, request piece) := by
  induction pieces generalizing imported with
  | nil => rfl
  | cons chunk rest ih =>
      rw [phaseBatches, List.map_cons, List.map_cons, ih]
      rfl

theorem batches_tagged (plan : BalancePlan) :
    plan.batches.map Batch.tagged = plan.phaseRequests := by
  rw [batches, genesisBatches, accountBatches, syntheticBatches, windowedBatches]
  simp only [List.map_append, phase, phaseBatches_tagged]
  simp only [phaseRequests, phases, List.flatMap_cons, List.flatMap_nil, List.map_map,
    List.append_nil, List.append_assoc]
  rfl

/-! ## The counts -/

/-- The progress message of a batch counts the records of its phase up to that batch, and all of
them. -/
def Counted (bs : List Batch) : Prop :=
  ∀ before b after, bs = before ++ b :: after →
    b.progress.imported.toNat =
      recordCount b.progress.phase ((before ++ [b]).map Batch.tagged) ∧
    b.progress.total.toNat = recordCount b.progress.phase (bs.map Batch.tagged)

/-- Phases with different names do not count each other's records. -/
theorem Counted.append {xs ys : List Batch} (hx : Counted xs) (hy : Counted ys)
    (hne : ∀ x ∈ xs, ∀ y ∈ ys, x.progress.phase ≠ y.progress.phase) : Counted (xs ++ ys) := by
  have hother {name : String} {bs : List Batch} (h : ∀ b ∈ bs, b.progress.phase ≠ name) :
      recordCount name (bs.map Batch.tagged) = 0 := by
    apply recordCount_of_ne
    rintro _ hr
    obtain ⟨b, hb, rfl⟩ := List.mem_map.1 hr
    exact h b hb
  have hright {more : List Batch} {b : Batch} {after : List Batch} (hys : ys = more ++ b :: after) :
      b.progress.imported.toNat =
        recordCount b.progress.phase ((xs ++ more ++ [b]).map Batch.tagged) ∧
      b.progress.total.toNat = recordCount b.progress.phase ((xs ++ ys).map Batch.tagged) := by
    obtain ⟨himported, htotal⟩ := hy more b after hys
    have hb : b ∈ ys := by
      rw [hys]
      exact List.mem_append_right _ List.mem_cons_self
    have hzero := hother fun x hx' => hne x hx' b hb
    rw [List.append_assoc, recordCount_tagged _ xs, recordCount_tagged _ xs, hzero, Nat.zero_add,
      Nat.zero_add]
    exact ⟨himported, htotal⟩
  intro before b after heq
  rcases List.append_eq_append_iff.1 heq with ⟨more, hbefore, hys⟩ | ⟨more, hxs, hafter⟩
  · rw [hbefore]
    exact hright hys
  · cases more with
    | nil =>
        rw [List.append_nil] at hxs
        have hys : ys = [] ++ b :: after := hafter.symm
        have hcounts := hright hys
        rw [List.append_nil] at hcounts
        rw [← hxs]
        exact hcounts
    | cons b' more =>
        rw [List.cons_append, List.cons.injEq] at hafter
        obtain ⟨rfl, hafter⟩ := hafter
        obtain ⟨himported, htotal⟩ := hx before b more hxs
        have hb : b ∈ xs := by
          rw [hxs]
          exact List.mem_append_right _ List.mem_cons_self
        have hzero := hother fun y hy' => (hne b hb y hy').symm
        rw [recordCount_tagged _ xs, hzero]
        exact ⟨himported, htotal⟩

section Phase

variable {α : Type*} {name : String} {request : List α → Request}

theorem phaseBatches_counted (hrequest : ∀ xs, (request xs).events.length = xs.length)
    (total : U64) {imported : U64} {pieces : List (List α)}
    (hfits : imported.toNat + pieces.flatten.length < 2 ^ 64) {before after : List Batch}
    {b : Batch}
    (hsplit : phaseBatches name request total imported pieces = before ++ b :: after) :
    b.progress.phase = name ∧ b.progress.total = total ∧
      b.progress.imported.toNat =
        imported.toNat + recordCount name ((before ++ [b]).map Batch.tagged) := by
  induction pieces generalizing imported before with
  | nil => exact absurd hsplit.symm (List.append_ne_nil_of_right_ne_nil _ (List.cons_ne_nil _ _))
  | cons chunk rest ih =>
      rw [List.flatten_cons, List.length_append] at hfits
      have hchunk : (BitVec.ofNat 64 chunk.length).toNat = chunk.length := by
        rw [BitVec.toNat_ofNat]
        exact Nat.mod_eq_of_lt (by omega)
      have himported : (imported + BitVec.ofNat 64 chunk.length).toNat =
          imported.toNat + chunk.length := by
        rw [BitVec.toNat_add_of_lt (by omega), hchunk]
      rw [phaseBatches] at hsplit
      cases before with
      | nil =>
          rw [List.nil_append, List.cons.injEq] at hsplit
          obtain ⟨rfl, _⟩ := hsplit
          refine ⟨rfl, rfl, himported.trans ?_⟩
          change _ = imported.toNat + recordCount name [(name, request chunk)]
          rw [recordCount_cons, hrequest]
          rfl
      | cons first before =>
          rw [List.cons_append, List.cons.injEq] at hsplit
          obtain ⟨rfl, hrest⟩ := hsplit
          obtain ⟨hname, htotal, hcount⟩ := ih (by omega) hrest
          refine ⟨hname, htotal, ?_⟩
          change _ = imported.toNat +
            recordCount name ((name, request chunk) :: (before ++ [b]).map Batch.tagged)
          rw [recordCount_cons, hrequest, hcount, himported]
          omega

theorem recordCount_pieces (hrequest : ∀ xs, (request xs).events.length = xs.length)
    (pieces : List (List α)) :
    recordCount name (pieces.map fun piece => (name, request piece)) = pieces.flatten.length := by
  induction pieces with
  | nil => rfl
  | cons piece rest ih =>
      rw [List.map_cons, recordCount_cons, hrequest, ih, List.flatten_cons, List.length_append]

theorem phase_counted (hrequest : ∀ xs, (request xs).events.length = xs.length)
    {records : List α} (hfits : FitsVec records) : Counted (phase name request records) := by
  have hlt : records.length < 2 ^ 64 := lt_trans hfits (by norm_num)
  have hflatten : (chunks batchSize records).flatten = records := chunks_flatten (by decide) _
  intro before b after hsplit
  have hfits' : (0 : U64).toNat + (chunks batchSize records).flatten.length < 2 ^ 64 := by
    rw [hflatten]
    simpa using hlt
  obtain ⟨rfl, htotal, himported⟩ := phaseBatches_counted hrequest _ hfits' hsplit
  refine ⟨by simpa using himported, ?_⟩
  rw [htotal, phase, phaseBatches_tagged, recordCount_pieces hrequest, hflatten,
    BitVec.toNat_ofNat, Nat.mod_eq_of_lt hlt]

theorem phase_name {records : List α} {b : Batch} (hb : b ∈ phase name request records) :
    b.progress.phase = name := by
  have htag : b.tagged ∈ (phase name request records).map Batch.tagged :=
    List.mem_map_of_mem hb
  rw [phase, phaseBatches_tagged] at htag
  obtain ⟨piece, _, heq⟩ := List.mem_map.1 htag
  exact (congrArg Prod.fst heq).symm

end Phase

theorem batches_counted {plan : BalancePlan} (hfits : plan.FitsVecs) : Counted plan.batches := by
  have haccounts (xs : List Account) : (accountRequest xs).events.length = xs.length := by
    simp [accountRequest, Request.events]
  have hsynthetic (xs : List SyntheticTransfer) :
      (syntheticRequest xs).events.length = xs.length := by
    simp [syntheticRequest, Request.events]
  have hwindowed (xs : List Transfer) : (windowedRequest xs).events.length = xs.length := by
    simp [windowedRequest, Request.events]
  have hgenesis : Counted plan.genesisBatches := phase_counted haccounts hfits.genesisAccounts
  have hregular : Counted plan.accountBatches := phase_counted haccounts hfits.regularAccounts
  have hsynth : Counted plan.syntheticBatches :=
    phase_counted hsynthetic hfits.syntheticTransfers
  have hwindow : Counted plan.windowedBatches := phase_counted hwindowed hfits.windowedTransfers
  refine ((hgenesis.append hregular ?_).append hsynth ?_).append hwindow ?_
  · intro x hx y hy
    rw [phase_name hx, phase_name hy]
    decide
  · intro x hx y hy
    rw [phase_name hy]
    rcases List.mem_append.1 hx with hx | hx <;> rw [phase_name hx] <;> decide
  · intro x hx y hy
    rw [phase_name hy]
    rcases List.mem_append.1 hx with hx | hx
    · rcases List.mem_append.1 hx with hx | hx <;> rw [phase_name hx] <;> decide
    · rw [phase_name hx]
      decide

theorem split_of_getLast?_filter {α : Type*} {p : α → Bool} {xs : List α} {x : α}
    (h : (xs.filter p).getLast? = some x) :
    ∃ before after, xs = before ++ x :: after ∧ ∀ y ∈ after, p y = false := by
  induction xs using List.reverseRecOn with
  | nil => cases h
  | append_singleton xs a ih =>
      rw [List.filter_append] at h
      by_cases ha : p a
      · rw [List.filter_cons_of_pos ha, List.filter_nil, List.getLast?_concat,
          Option.some.injEq] at h
        exact ⟨xs, [], by rw [h], fun y hy => absurd hy List.not_mem_nil⟩
      · rw [List.filter_cons_of_neg ha, List.filter_nil, List.append_nil] at h
        obtain ⟨before, after, hxs, hafter⟩ := ih h
        refine ⟨before, after ++ [a], by rw [hxs, List.append_assoc, List.cons_append], ?_⟩
        intro y hy
        rcases List.mem_append.1 hy with hy | hy
        · exact hafter y hy
        · rw [List.mem_singleton.1 hy]
          exact Bool.eq_false_iff.2 ha

/-- When all batches of a phase have been accepted, its last message is the total. -/
theorem Counted.last {bs : List Batch} (h : Counted bs) {name : String} {p : ImportProgress}
    (hlast : ((bs.map Batch.progress).filter fun p => p.phase = name).getLast? = some p) :
    p.imported = p.total := by
  obtain ⟨before', after', hsplit, hafter⟩ := split_of_getLast?_filter hlast
  obtain ⟨before, rest, rfl, rfl, hrest⟩ := List.map_eq_append_iff.1 hsplit
  obtain ⟨b, after, rfl, rfl, rfl⟩ := List.map_eq_cons_iff.1 hrest
  have hname : b.progress.phase = name := by
    have hmem := List.mem_of_getLast? hlast
    simpa using (List.mem_filter.1 hmem).2
  obtain ⟨himported, htotal⟩ := h before b after rfl
  have hzero : recordCount b.progress.phase (after.map Batch.tagged) = 0 := by
    apply recordCount_of_ne
    rintro _ hr
    obtain ⟨c, hc, rfl⟩ := List.mem_map.1 hr
    have hphase : c.progress.phase ≠ name := by
      simpa using hafter c.progress (List.mem_map_of_mem hc)
    rw [hname]
    exact hphase
  have hbatches : before ++ b :: after = before ++ [b] ++ after := by
    rw [List.append_assoc, List.singleton_append]
  apply BitVec.eq_of_toNat_eq
  rw [himported, htotal, hbatches, recordCount_tagged _ (before ++ [b]), hzero, Nat.add_zero]

/-! ## What the import does -/

/-- The import submits the batches of the four phases in turn, ends only where one fails or all
are accepted, and reports each accepted one. -/
structure Faithful (plan : BalancePlan) (replies : ℕ → Reply)
    (outcome : ImportRun × Except CompressorError Unit) : Prop where
  batches : outcome.1.submitted <+: plan.phaseRequests.map Prod.snd
  events : outcome.1.submitted.flatMap Request.events <+: plan.events
  sizes : ∀ r ∈ outcome.1.submitted, 0 < r.events.length ∧ r.events.length ≤ batchSize
  stops : ∀ k < outcome.1.submitted.length, replies k ≠ .results 0 →
    outcome.1.submitted.length = k + 1
  ok_iff : outcome.2 = .ok () ↔
    outcome.1.submitted.flatMap Request.events = plan.events ∧
      ∀ k < outcome.1.submitted.length, replies k = .results 0
  error : ∀ e, outcome.2 = .error e → ∃ k r, k + 1 = outcome.1.submitted.length ∧
    outcome.1.submitted[k]? = some r ∧ replies k ≠ .results 0 ∧ r.failure (replies k) = some e
  messages : ∀ k, k < outcome.1.progress.length ↔
    k < outcome.1.submitted.length ∧ replies k = .results 0
  counts : ∀ k p, outcome.1.progress[k]? = some p →
    (∃ r, plan.phaseRequests[k]? = some (p.phase, r)) ∧
      p.imported.toNat = recordCount p.phase (plan.phaseRequests.take (k + 1)) ∧
      p.total.toNat = recordCount p.phase plan.phaseRequests
  last : outcome.2 = .ok () → ∀ name p,
    (outcome.1.progress.filter fun p => p.phase = name).getLast? = some p → p.imported = p.total

theorem length_of_mem_phaseRequests {plan : BalancePlan} {r : String × Request}
    (h : r ∈ plan.phaseRequests) :
    0 < r.2.events.length ∧ r.2.events.length ≤ batchSize := by
  have hpieces {α : Type} {request : List α → Request}
      (hrequest : ∀ xs, (request xs).events.length = xs.length) {records : List α} {r : Request}
      (hr : r ∈ (chunks batchSize records).map request) :
      0 < r.events.length ∧ r.events.length ≤ batchSize := by
    obtain ⟨piece, hpiece, rfl⟩ := List.mem_map.1 hr
    rw [hrequest]
    exact length_of_mem_chunks (by decide) hpiece
  obtain ⟨p, hp, hr⟩ := List.mem_flatMap.1 h
  obtain ⟨request, hrequest, rfl⟩ := List.mem_map.1 hr
  simp only [phases, List.mem_cons, List.not_mem_nil, or_false] at hp
  rcases hp with rfl | rfl | rfl | rfl
  · exact hpieces (fun xs => by simp [accountRequest, Request.events]) hrequest
  · exact hpieces (fun xs => by simp [accountRequest, Request.events]) hrequest
  · exact hpieces (fun xs => by simp [syntheticRequest, Request.events]) hrequest
  · exact hpieces (fun xs => by simp [windowedRequest, Request.events]) hrequest

theorem phaseRequests_events (plan : BalancePlan) :
    (plan.phaseRequests.map Prod.snd).flatMap Request.events = plan.events := by
  rw [← batches_events, ← batches_tagged, List.map_map, List.flatMap_map]
  rfl

theorem reply_of_failure {r : Request} {reply : Reply} {e : CompressorError}
    (h : r.failure reply = some e) : reply ≠ .results 0 := by
  rintro rfl
  rw [(r.failure_eq_none_iff _).2 rfl] at h
  cases h

/-- Message `k` counts the records of its phase in the first `k + 1` batches. -/
theorem counts_of_counted {plan : BalancePlan} (hcounted : Counted plan.batches)
    {accepted rest : List Batch} (hbatches : plan.batches = accepted ++ rest) {k : ℕ}
    {p : ImportProgress} (hp : (accepted.map Batch.progress)[k]? = some p) :
    (∃ r, plan.phaseRequests[k]? = some (p.phase, r)) ∧
      p.imported.toNat = recordCount p.phase (plan.phaseRequests.take (k + 1)) ∧
      p.total.toNat = recordCount p.phase plan.phaseRequests := by
  rw [List.getElem?_map, Option.map_eq_some_iff] at hp
  obtain ⟨b, hb, rfl⟩ := hp
  have hlt := (List.getElem?_eq_some_iff.1 hb).1
  have hget : plan.batches[k]? = some b := by
    rw [hbatches, List.getElem?_append_left hlt, hb]
  obtain ⟨hlt', hb'⟩ := List.getElem?_eq_some_iff.1 hget
  have hsplit : plan.batches = plan.batches.take k ++ b :: plan.batches.drop (k + 1) := by
    rw [← hb', List.cons_getElem_drop_succ, List.take_append_drop]
  have htake : plan.batches.take k ++ [b] = plan.batches.take (k + 1) := by
    rw [← hb', List.take_concat_get']
  obtain ⟨himported, htotal⟩ := hcounted _ b _ hsplit
  rw [← batches_tagged]
  refine ⟨⟨b.request, ?_⟩, ?_, htotal⟩
  · rw [List.getElem?_map, hget]
    rfl
  · rw [← List.map_take, ← htake]
    exact himported

theorem faithful_of_traversal {plan : BalancePlan} {replies : ℕ → Reply}
    {outcome : ImportRun × Except CompressorError Unit} (hcounted : Counted plan.batches)
    (h : Traversal replies plan.batches outcome) : Faithful plan replies outcome := by
  have hrequests : plan.phaseRequests.map Prod.snd = plan.batches.map Batch.request := by
    rw [← batches_tagged, List.map_map]
    rfl
  have hpre := h.submitted_isPrefix
  rw [← hrequests] at hpre
  have hsizes : ∀ r ∈ outcome.1.submitted, 0 < r.events.length ∧ r.events.length ≤ batchSize := by
    intro r hr
    obtain ⟨tagged, htagged, rfl⟩ := List.mem_map.1 (hpre.subset hr)
    exact length_of_mem_phaseRequests htagged
  have hevents : outcome.1.submitted.flatMap Request.events <+: plan.events := by
    obtain ⟨more, hmore⟩ := hpre
    rw [← phaseRequests_events, ← hmore, List.flatMap_append]
    exact List.prefix_append _ _
  cases h with
  | finished haccepted =>
      constructor
      · exact hpre
      · exact hevents
      · exact hsizes
      · intro k hk hreply
        rw [List.length_map] at hk
        exact absurd (haccepted k hk) hreply
      · refine iff_of_true rfl ⟨?_, ?_⟩
        · rw [← phaseRequests_events, hrequests]
        · intro k hk
          rw [List.length_map] at hk
          exact haccepted k hk
      · intro e herror
        cases herror
      · intro k
        rw [List.length_map, List.length_map]
        exact ⟨fun hk => ⟨hk, haccepted k hk⟩, And.left⟩
      · intro k p hp
        exact counts_of_counted hcounted (List.append_nil _).symm hp
      · intro _ name p hlast
        exact hcounted.last hlast
  | failed accepted b rest e hbatches haccepted hfailure =>
      have hreply := reply_of_failure hfailure
      have hlength : (accepted.map Batch.request ++ [b.request]).length = accepted.length + 1 := by
        rw [List.length_append, List.length_map, List.length_singleton]
      constructor
      · exact hpre
      · exact hevents
      · exact hsizes
      · intro k hk hfails
        rw [hlength] at hk ⊢
        by_contra hne
        exact hfails (haccepted k (by omega))
      · refine iff_of_false (fun h => nomatch h) ?_
        rintro ⟨_, hall⟩
        exact hreply (hall accepted.length (by rw [hlength]; omega))
      · rintro _ ⟨⟩
        refine ⟨accepted.length, b.request, hlength.symm, ?_, hreply, hfailure⟩
        rw [List.getElem?_append_right (List.length_map _).le, List.length_map, Nat.sub_self]
        rfl
      · intro k
        rw [hlength, List.length_map]
        constructor
        · intro hk
          exact ⟨by omega, haccepted k hk⟩
        · rintro ⟨hk, hok⟩
          by_contra hge
          have hlast : k = accepted.length := by omega
          exact hreply (hlast ▸ hok)
      · intro k p hp
        exact counts_of_counted hcounted hbatches hp
      · intro h
        cases h

/-- In every build, for every plan and all replies of the client. -/
theorem importAllWithProgress_faithful (prof : Profile) (replies : ℕ → Reply) {plan : BalancePlan}
    (hfits : plan.FitsVecs) :
    ∃ outcome, plan.importAllWithProgress prof replies = some outcome ∧
      plan.Faithful replies outcome := by
  obtain ⟨outcome, heq, htraversal⟩ := importAllWithProgress_traversal prof replies hfits
  exact ⟨outcome, heq, faithful_of_traversal (batches_counted hfits) htraversal⟩

theorem importAllWithProgress_faithful_refused :
    ∃ outcome,
      (⟨[], [.holding 7 1 0 5 1], [], [.moving 11 7 8 50 1 0 4]⟩ :
        BalancePlan).importAllWithProgress .debug (fun k => .results k) = some outcome ∧
      Faithful ⟨[], [.holding 7 1 0 5 1], [], [.moving 11 7 8 50 1 0 4]⟩ (fun k => .results k)
        outcome :=
  importAllWithProgress_faithful .debug (fun k => .results k)
    ⟨by decide, by decide, by decide, by decide⟩

end BalancePlan

end TbManager
