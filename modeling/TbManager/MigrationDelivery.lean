import TbManager.BookEntries
import TbManager.ClosedAccounts
import TbManager.SharedTarget
import TbManager.WindowedReplay

/-!
# What a migration delivers

A migration and the cluster it writes to. Of a request that it refuses the target
may have created any of the events. At every moment of every run the balances on a
target that was empty stay within those of the source, and once the stream has told
of a success of a task that lives they are those of the source.
-/

namespace TbManager

namespace Event

def entry : Event → Entry U128 ℕ
  | createAccount a => .opened a.id
  | createTransfer t => .posted t.effective

def opened (es : List Event) : List U128 := (es.map entry).filterMap Entry.opened?

def postings (es : List Event) : List (Posting U128 ℕ) := (es.map entry).filterMap Entry.posting?

@[simp] theorem opened_append (es es' : List Event) :
    opened (es ++ es') = opened es ++ opened es' := by
  rw [opened, List.map_append, List.filterMap_append]
  rfl

@[simp] theorem postings_append (es es' : List Event) :
    postings (es ++ es') = postings es ++ postings es' := by
  rw [postings, List.map_append, List.filterMap_append]
  rfl

@[simp] theorem opened_accounts (as : List Account) :
    opened (as.map fun a => createAccount (convertAccount a true)) = as.map Account.id := by
  rw [opened, List.map_map, List.filterMap_map]
  exact congrFun List.filterMap_eq_map as

@[simp] theorem postings_accounts (as : List Account) :
    postings (as.map fun a => createAccount (convertAccount a true)) = [] := by
  rw [postings, List.map_map, List.filterMap_map, List.filterMap_eq_nil_iff]
  exact fun _ _ => rfl

@[simp] theorem opened_transfers (ts : List Transfer) : opened (ts.map createTransfer) = [] := by
  rw [opened, List.map_map, List.filterMap_map, List.filterMap_eq_nil_iff]
  exact fun _ _ => rfl

@[simp] theorem postings_transfers (ts : List Transfer) :
    postings (ts.map createTransfer) = ts.map Transfer.effective := by
  rw [postings, List.map_map, List.filterMap_map]
  exact congrFun List.filterMap_eq_map ts

end Event

/-- What the target may create of a request that it answers with a reply. -/
def Request.Makes (request : Request) (reply : Reply) (made : List Event) : Prop :=
  made.Sublist request.events ∧ (request.failure reply = none → made = request.events)

instance (request : Request) (reply : Reply) (made : List Event) :
    Decidable (request.Makes reply made) := inferInstanceAs (Decidable (_ ∧ _))

namespace Migration

/-- What the target may create in a step of a migration. -/
def Makes (m : Migration) (a : MigrationAction) (made : List Event) : Prop :=
  match a, m.task with
  | .submit reply, .importing (batch :: _) => batch.request.Makes reply made
  | _, _ => made = []

instance (m : Migration) (a : MigrationAction) (made : List Event) :
    Decidable (m.Makes a made) := by
  unfold Makes
  split <;> infer_instance

def rest (m : Migration) : Option (List Batch) :=
  match m.task with
  | .replied batch reply left => if batch.request.failure reply = none then some left else none
  | _ => m.left

def Succeeded (m : Migration) : Prop := ∃ p ∈ m.yielded, p.done = true ∧ p.error = ""

instance (m : Migration) : Decidable m.Succeeded :=
  inferInstanceAs (Decidable (∃ p ∈ m.yielded, p.done = true ∧ p.error = ""))

end Migration

/-- A migration and what has been created on the target, before and by it. -/
structure Delivery where
  migration : Migration
  created : List Event
  deriving DecidableEq

namespace Delivery

def start (base : List Event) (plan : BalancePlan) : Delivery := ⟨Migration.spawn plan, base⟩

/-- The balances on the target, if it is a cluster that accepts what was created. -/
def target (d : Delivery) : Option (Book U128 ℕ) := Book.blank.enterAll (d.created.map Event.entry)

def step (d : Delivery) (x : MigrationAction × List Event) : Option Delivery := do
  let m ← d.migration.step x.1
  let d' : Delivery := ⟨m, d.created ++ x.2⟩
  if d.migration.Makes x.1 x.2 ∧ d'.target.isSome then some d' else none

structure Inv (base : List Event) (d : Delivery) : Prop where
  migration : d.migration.Inv
  accepted : d.migration.accepted <+: d.migration.plan.batches
  /-- Nothing has been refused while the import goes on. -/
  going : d.migration.rest.isSome →
    d.created = base ++ d.migration.accepted.flatMap fun b => b.request.events
  created : ∃ part,
    d.created = base ++ (d.migration.accepted.flatMap fun b => b.request.events) ++ part ∧
    part.Sublist ((d.migration.plan.batches.drop d.migration.accepted.length).flatMap
      fun b => b.request.events)
  /-- Only a task that has died is mistaken for a complete one. -/
  told : d.migration.task ≠ .died → d.migration.Truthful

variable {d d' : Delivery} {x : MigrationAction × List Event}

theorem step_cases (h : d.step x = some d') :
    d.migration.step x.1 = some d'.migration ∧ d'.created = d.created ++ x.2 ∧
      d.migration.Makes x.1 x.2 ∧ d'.target.isSome := by
  simp only [step, Option.bind_eq_bind, Option.bind_eq_some_iff] at h
  obtain ⟨m, hm, h⟩ := h
  split_ifs at h with hmakes
  rw [← Option.some.inj h]
  exact ⟨hm, rfl, hmakes.1, hmakes.2⟩

end Delivery

namespace Migration

variable {m m' : Migration} {a : MigrationAction}

theorem step_plan (h : m.step a = some m') : m'.plan = m.plan := by
  cases step_moves h <;> rfl

theorem step_died (h : m.step a = some m') (hdied : m.task = .died) : m'.task = .died := by
  cases step_moves h with
  | died hover => rfl
  | droppedProgressTx | droppedErrorTx | forwarded | closed | finished | defaulted
  | clientGone => exact hdied
  | connected htask | notConnected _ htask | accepted _ _ _ htask | refused _ _ _ htask
  | goOn _ _ _ htask | giveUp _ _ _ _ htask | reported _ _ _ htask | imported htask
  | answered _ htask =>
      rw [hdied] at htask
      cases htask

theorem step_told (hi : m.Inv) (h : m.step a = some m') (htold : m.task ≠ .died → m.Truthful) :
    m'.task ≠ .died → m'.Truthful := by
  intro halive
  have hlive : m.task ≠ .died := fun hdied => halive (step_died h hdied)
  refine (truthful_step_iff hi (htold hlive) h).2 ?_
  cases a with
  | recvError => exact fun hdied => absurd hdied hlive
  | _ => trivial

/-- The batches left are those after the accepted ones. -/
theorem Inv.rest (hi : m.Inv) {l : List Batch} (h : m.rest = some l) :
    m.accepted ++ l = m.plan.batches := by
  unfold Migration.rest at h
  split at h
  · next batch reply rest htask =>
      split_ifs at h with hreply
      cases h
      exact hi.replied batch reply l htask hreply
  · exact hi.left l h

theorem rest_of_left {l : List Batch} (h : m.left = some l) : m.rest = some l := by
  unfold rest
  split
  · next htask =>
      rw [left, htask] at h
      cases h
  · exact h

/-- What a step does to the accepted batches, when the target creates events in it. -/
inductive Creates (m : Migration) : Migration → List Event → Prop
  | none {m' : Migration} (haccepted : m'.accepted = m.accepted)
      (hrest : m'.rest.isSome → m.rest.isSome) : Creates m m' []
  | all {m' : Migration} {batch : Batch} {l : List Batch} (h : m.rest = some (batch :: l))
      (haccepted : m'.accepted = m.accepted ++ [batch]) : Creates m m' batch.request.events
  | some {m' : Migration} {batch : Batch} {l : List Batch} {made : List Event}
      (h : m.rest = some (batch :: l)) (haccepted : m'.accepted = m.accepted)
      (hrest : m'.rest = .none) (hmade : made.Sublist batch.request.events) : Creates m m' made

theorem step_creates {made : List Event} (h : m.step a = .some m') (hmakes : m.Makes a made) :
    m.Creates m' made := by
  cases step_moves h with
  | accepted batch reply l htask hreply =>
      simp only [Makes, htask, Request.Makes] at hmakes
      rw [hmakes.2 hreply]
      exact .all (rest_of_left (by rw [left, htask])) rfl
  | refused batch reply l htask hreply =>
      simp only [Makes, htask, Request.Makes] at hmakes
      exact .some (rest_of_left (by rw [left, htask])) rfl (if_neg hreply) hmakes.1
  | connected htask =>
      cases hmakes
      exact .none rfl fun _ => by rw [rest_of_left (by rw [left, htask])]; rfl
  | goOn batch reply l htask hreply =>
      cases hmakes
      refine .none rfl fun _ => ?_
      rw [rest, htask]
      simp only [if_pos hreply, Option.isSome_some]
  | reported progress l channel htask =>
      cases hmakes
      exact .none rfl fun _ => by rw [rest_of_left (by rw [left, htask])]; rfl
  | notConnected | giveUp | imported | answered | died =>
      cases hmakes
      exact .none rfl fun hrest => absurd hrest Bool.false_ne_true
  | droppedProgressTx | droppedErrorTx | forwarded | closed | finished | defaulted | clientGone =>
      cases hmakes
      exact .none rfl id

end Migration

namespace Delivery

variable {base : List Event} {d d' : Delivery} {x : MigrationAction × List Event}

theorem start_inv (base : List Event) (plan : BalancePlan) : (start base plan).Inv base where
  migration := Migration.spawn_inv plan
  accepted := List.nil_prefix
  going := fun _ => (List.append_nil base).symm
  created := ⟨[], by rw [List.append_nil]; exact (List.append_nil base).symm, List.nil_sublist _⟩
  told := fun _ _ hm => nomatch hm

theorem step_inv (hi : d.Inv base) (h : d.step x = some d') : d'.Inv base := by
  obtain ⟨a, made⟩ := x
  obtain ⟨hm, hcreated, hmakes, _⟩ := step_cases h
  obtain ⟨part, hpart, hsublist⟩ := hi.created
  have hmigration := Migration.step_inv hi.migration hm
  have htold := Migration.step_told hi.migration hm hi.told
  have hplan := Migration.step_plan hm
  dsimp only at hm hcreated hmakes
  cases Migration.step_creates hm hmakes with
  | none haccepted hrest =>
      rw [List.append_nil] at hcreated
      constructor
      · exact hmigration
      · rw [haccepted, hplan]
        exact hi.accepted
      · intro hgoing
        rw [hcreated, haccepted]
        exact hi.going (hrest hgoing)
      · rw [hcreated, haccepted, hplan]
        exact ⟨part, hpart, hsublist⟩
      · exact htold
  | @all batch l hleft haccepted =>
      have hbatches := hi.migration.rest hleft
      have hgoing : d'.created =
          base ++ d'.migration.accepted.flatMap fun b => b.request.events := by
        rw [hcreated, haccepted, List.flatMap_append, hi.going (by rw [hleft]; rfl),
          List.flatMap_singleton, List.append_assoc]
      constructor
      · exact hmigration
      · refine ⟨l, ?_⟩
        rw [haccepted, hplan, ← hbatches, List.append_assoc]
        rfl
      · exact fun _ => hgoing
      · exact ⟨[], by rw [List.append_nil, hgoing], List.nil_sublist _⟩
      · exact htold
  | @some batch l _ hleft haccepted hrest hmade =>
      have hbatches := hi.migration.rest hleft
      constructor
      · exact hmigration
      · rw [haccepted, hplan]
        exact hi.accepted
      · intro hgoing
        rw [hrest] at hgoing
        cases hgoing
      · refine ⟨made, ?_, ?_⟩
        · rw [hcreated, haccepted, hi.going (by rw [hleft]; rfl)]
        · rw [haccepted, hplan, ← hbatches, List.drop_left, List.flatMap_cons]
          exact hmade.trans (List.sublist_append_left _ _)
      · exact htold

variable {plan : BalancePlan} {xs : List (MigrationAction × List Event)}

theorem run_inv (hrun : runFrom step (start base plan) xs = some d) : d.Inv base :=
  invariant_run (fun _ _ _ hi h => step_inv hi h) (start_inv base plan) hrun

theorem run_plan (hrun : runFrom step (start base plan) xs = some d) : d.migration.plan = plan :=
  invariant_run (I := fun e => e.migration.plan = plan)
    (fun _ _ _ hi h => (Migration.step_plan (step_cases h).1).trans hi) rfl hrun

theorem run_target (hbase : (start base plan).target.isSome)
    (hrun : runFrom step (start base plan) xs = some d) : d.target.isSome :=
  invariant_run (I := fun e => e.target.isSome) (fun _ _ _ _ h => (step_cases h).2.2.2) hbase hrun

/-- Whatever was created is a part of the plan in its order. -/
theorem Inv.sublist (hi : d.Inv base) : d.created.Sublist (base ++ d.migration.plan.events) := by
  obtain ⟨part, hcreated, hpart⟩ := hi.created
  obtain ⟨tail, htail⟩ := hi.accepted
  rw [← htail, List.drop_left] at hpart
  rw [hcreated, ← BalancePlan.batches_events, ← htail, List.flatMap_append, List.append_assoc]
  exact (hpart.append_left _).append_left base

/-- A success that a living task stands for means that all of the plan was created. -/
theorem Inv.complete (hi : d.Inv base) (hsuccess : d.migration.Succeeded)
    (halive : d.migration.task ≠ .died) : d.created = base ++ d.migration.plan.events := by
  obtain ⟨p, hp, hdone, herror⟩ := hsuccess
  have hcomplete := hi.told halive p hp hdone herror
  obtain ⟨part, hcreated, hpart⟩ := hi.created
  have haccepted : d.migration.accepted = d.migration.plan.batches := hcomplete
  rw [haccepted, List.drop_length, List.flatMap_nil, List.sublist_nil] at hpart
  rw [hcreated, hpart, List.append_nil, hcomplete.events]

end Delivery

/-! ## The balances of the source -/

namespace BalancePlan

variable {plan : BalancePlan}

/-- The events of a plan open its accounts and post its transfers. -/
@[simp] theorem opened_events (plan : BalancePlan) : Event.opened plan.events =
    (plan.genesisAccounts ++ plan.regularAccounts).map Account.id := by
  rw [events, Event.opened_append, Event.opened_accounts, Event.opened_transfers, List.append_nil]

@[simp] theorem postings_events (plan : BalancePlan) : Event.postings plan.events =
    plan.submittedTransfers.map Transfer.effective := by
  rw [events, Event.postings_append, Event.postings_accounts, Event.postings_transfers,
    List.nil_append]

/-- Its postings add up to the posted balances of accounts that it opens. -/
structure AddsUp (plan : BalancePlan) (accounts : List Account) : Prop where
  opened (i : U128) : i ∈ (plan.genesisAccounts ++ plan.regularAccounts).map Account.id ↔
    (∃ l ∈ accounts.map Account.ledger, i = genesisCreditId l ∨ i = genesisDebitId l) ∨
      i ∈ accounts.map Account.id
  totals : ∀ a ∈ accounts,
    debitTotal a.id (plan.submittedTransfers.map Transfer.effective) = a.debitsPosted.toNat ∧
      creditTotal a.id (plan.submittedTransfers.map Transfer.effective) = a.creditsPosted.toNat

theorem addsUp_build {prof : Profile} {ord : IterOrder U32 (List Account)}
    {accounts : List Account} (h : build prof ord accounts = some plan)
    (hf : FreshIds accounts) : plan.AddsUp accounts := by
  have hshape := buildSnapshotImpl_shape h
  have hpostings : plan.submittedTransfers.map Transfer.effective = plan.syntheticPostings := by
    rw [submittedTransfers_effective, buildSnapshotImpl_windowedTransfers h, List.map_nil,
      List.append_nil]
    rfl
  refine ⟨hshape.mem_openIds, fun a ha => ?_⟩
  rw [hpostings]
  exact ⟨hshape.debitTotal_account hf ha, hshape.creditTotal_account hf ha⟩

theorem addsUp_buildWindowed {prof : Profile} {ord : IterOrder U32 (List Account)} {s : Cluster}
    (hi : s.Inv) (hsingle : ∀ t ∈ s.transfers, t.SinglePhase) {finals : List Account}
    (hfinals : finals.Perm s.accounts) (hgen : AvoidGenesisIds finals) {c : U64}
    {window : List Transfer} (hwindow : window.Perm (s.transfersFrom c))
    (h : buildWindowed prof ord finals window c = some plan) : plan.AddsUp finals := by
  obtain ⟨d, hd, hwindowed, hshape⟩ := buildWindowed_cases h
  have hf := adjusted_fresh (c := c) hi hfinals hgen d.1 d.2
  have hpostings : plan.submittedTransfers.map Transfer.effective =
      plan.syntheticPostings ++ window.map Transfer.posting := by
    rw [submittedTransfers_effective, hwindowed, Transfer.map_effective_of_singlePhase]
    · rfl
    · exact fun t ht => hsingle t (List.mem_of_mem_filter (hwindow.mem_iff.1 ht))
  constructor
  · intro i
    rw [hshape.mem_openIds, adjusted_ids, adjusted_ledgers]
  · intro a ha
    rw [hpostings, debitTotal_append, creditTotal_append]
    exact restored_account hi hsingle hfinals hwindow hd hf hshape ha

end BalancePlan

/-- A target knows accounts of the source and genesis accounts, at most with the balances of the
source. -/
structure Within (accounts : List Account) (book : Book U128 ℕ) : Prop where
  known (i : U128) : (book i).isSome →
    (∃ l ∈ accounts.map Account.ledger, i = genesisCreditId l ∨ i = genesisDebitId l) ∨
      i ∈ accounts.map Account.id
  bounded : ∀ a ∈ accounts, ∀ t, book a.id = some t →
    t.debits ≤ a.debitsPosted.toNat ∧ t.credits ≤ a.creditsPosted.toNat

namespace Delivery

variable {base : List Event} {d : Delivery} {accounts : List Account} {book : Book U128 ℕ}

theorem Inv.bounded (hi : d.Inv base) (hbook : d.target = some book) {i : U128} {t : Totals ℕ}
    (ht : book i = some t) :
    i ∈ Event.opened (base ++ d.migration.plan.events) ∧
      t.debits ≤ debitTotal i (Event.postings (base ++ d.migration.plan.events)) ∧
      t.credits ≤ creditTotal i (Event.postings (base ++ d.migration.plan.events)) := by
  rw [(Book.enterAll_blank hbook).1] at ht
  exact Book.summed_le_of_sublist (hi.sublist.map Event.entry) ht

theorem Inv.arrived (hi : d.Inv base) (hsuccess : d.migration.Succeeded)
    (halive : d.migration.task ≠ .died) (hbook : d.target = some book) :
    (Book.opening (Event.opened (base ++ d.migration.plan.events))).replay
      (Event.postings (base ++ d.migration.plan.events)) = some book := by
  obtain ⟨rfl, hsettled⟩ := Book.enterAll_blank hbook
  rw [hi.complete hsuccess halive] at hsettled ⊢
  exact Book.opening_replay_eq hsettled

theorem Inv.within (hi : d.Inv []) (hplan : d.migration.plan.AddsUp accounts)
    (hbook : d.target = some book) : Within accounts book := by
  constructor
  · intro i hopen
    obtain ⟨t, ht⟩ := Option.isSome_iff_exists.1 hopen
    have hopened := (hi.bounded hbook ht).1
    rwa [List.nil_append, BalancePlan.opened_events, hplan.opened] at hopened
  · intro a ha t ht
    have hle := (hi.bounded hbook ht).2
    rwa [List.nil_append, BalancePlan.postings_events, (hplan.totals a ha).1,
      (hplan.totals a ha).2] at hle

/-- Throughout a snapshot migration the target stays within the accounts it was planned for, and a
success that a living task stands for leaves their balances on it. -/
theorem snapshot_delivered {prof : Profile} {ord : IterOrder U32 (List Account)}
    {plan : BalancePlan} (hplan : BalancePlan.build prof ord accounts = some plan)
    (hf : FreshIds accounts)
    {xs : List (MigrationAction × List Event)} (hrun : runFrom step (start [] plan) xs = some d) :
    ∃ book, d.target = some book ∧ Within accounts book ∧
      (d.migration.Succeeded → d.migration.task ≠ .died → BalancePlan.Rebuilt accounts book) := by
  have hi := run_inv hrun
  obtain ⟨book, hbook⟩ := Option.isSome_iff_exists.1 (run_target rfl hrun)
  have hadds := BalancePlan.addsUp_build hplan hf
  rw [← run_plan hrun] at hadds hplan
  refine ⟨book, hbook, hi.within hadds hbook, fun hsuccess halive => ?_⟩
  have hreplay := hi.arrived hsuccess halive hbook
  obtain ⟨book', hreplay', hrebuilt⟩ := (BalancePlan.buildSnapshotImpl_shape hplan).rebuilt hf
  rw [List.nil_append, BalancePlan.opened_events, BalancePlan.postings_events,
    BalancePlan.submittedTransfers_effective, BalancePlan.buildSnapshotImpl_windowedTransfers hplan,
    List.map_nil, List.append_nil] at hreplay
  rwa [Option.some.inj (hreplay.symm.trans hreplay')]

def handled (reply : Reply) (made : List Event) : List (MigrationAction × List Event) :=
  [(.submit reply, made), (.takeReply, [])]

def imported (b : Batch) : List (MigrationAction × List Event) :=
  handled (.results 0) b.request.events ++ [(.sendProgress, []), (.recv, [])]

def refusedAccounts (plan : BalancePlan) : List (MigrationAction × List Event) :=
  (.connect none, []) :: plan.genesisBatches.flatMap imported ++
    handled (.results 2) ((plan.accountBatches.flatMap fun b => b.request.events).take 1)

def twoLedgersPlan : BalancePlan :=
  (BalancePlan.build .release .stored BalancePlan.twoLedgers).getD ⟨[], [], [], []⟩

def twoLedgersRefused : Delivery :=
  (runFrom step (start [] twoLedgersPlan) (refusedAccounts twoLedgersPlan)).getD
    (start [] twoLedgersPlan)

theorem snapshot_delivered_refused :
    BalancePlan.build .release .stored BalancePlan.twoLedgers = some twoLedgersPlan ∧
    FreshIds BalancePlan.twoLedgers ∧
    runFrom step (start [] twoLedgersPlan) (refusedAccounts twoLedgersPlan) =
      some twoLedgersRefused ∧
    ∃ book, twoLedgersRefused.target = some book ∧ Within BalancePlan.twoLedgers book ∧
      (twoLedgersRefused.migration.Succeeded → twoLedgersRefused.migration.task ≠ .died →
        BalancePlan.Rebuilt BalancePlan.twoLedgers book) :=
  have hplan : BalancePlan.build .release .stored BalancePlan.twoLedgers = some twoLedgersPlan := by
    decide +kernel
  have hf : FreshIds BalancePlan.twoLedgers := by decide +kernel
  have hrun : runFrom step (start [] twoLedgersPlan) (refusedAccounts twoLedgersPlan) =
      some twoLedgersRefused := by decide +kernel
  ⟨hplan, hf, hrun, snapshot_delivered hplan hf hrun⟩

/-- Throughout a windowed migration of a history of plain transfers the target stays within the
final balances of the source, and a success that a living task stands for restores them. -/
theorem windowed_delivered {events : List Event} {s : Cluster}
    (hsource : Cluster.empty.run events = some s) (hsingle : ∀ t ∈ s.transfers, t.SinglePhase)
    {finals : List Account} (hfinals : finals.Perm s.accounts) (hgen : AvoidGenesisIds finals)
    {cutoffTs : U64} {window : List Transfer} (hwindow : window.Perm (s.transfersFrom cutoffTs))
    {prof : Profile} {ord : IterOrder U32 (List Account)} {plan : BalancePlan}
    (hplan : BalancePlan.buildWindowed prof ord finals window cutoffTs = some plan)
    {xs : List (MigrationAction × List Event)} (hrun : runFrom step (start [] plan) xs = some d) :
    ∃ book, d.target = some book ∧ Within finals book ∧
      (d.migration.Succeeded → d.migration.task ≠ .died → BalancePlan.Restored finals book) := by
  have hsrc := Cluster.inv_run Cluster.inv_empty hsource
  have hi := run_inv hrun
  obtain ⟨book, hbook⟩ := Option.isSome_iff_exists.1 (run_target rfl hrun)
  have hadds := BalancePlan.addsUp_buildWindowed hsrc hsingle hfinals hgen hwindow hplan
  rw [← run_plan hrun] at hadds hplan
  refine ⟨book, hbook, hi.within hadds hbook, fun hsuccess halive => ?_⟩
  have hreplay := hi.arrived hsuccess halive hbook
  obtain ⟨δ, hd, hwindowed, hshape⟩ := BalancePlan.buildWindowed_cases hplan
  have hplanned : d.migration.plan.windowedPostings = window.map Transfer.posting := by
    rw [BalancePlan.windowedPostings, hwindowed]
  obtain ⟨book', hreplay', hrestored⟩ :=
    BalancePlan.restored hsrc hsingle hfinals hgen hwindow hd hplanned hshape
  have heffective : window.map Transfer.effective = window.map Transfer.posting :=
    Transfer.map_effective_of_singlePhase fun t ht =>
      hsingle t (List.mem_of_mem_filter (hwindow.mem_iff.1 ht))
  rw [List.nil_append, BalancePlan.opened_events, BalancePlan.postings_events,
    BalancePlan.submittedTransfers_effective, hwindowed, heffective, ← hplanned] at hreplay
  rwa [Option.some.inj (hreplay.symm.trans hreplay')]

def acceptedAll (plan : BalancePlan) : List (MigrationAction × List Event) :=
  (.connect none, []) :: plan.batches.flatMap imported ++
    [(.finishImport, []), (.sendError, []), (.recv, []), (.recvError, [])]

def midwayPlan : BalancePlan :=
  (BalancePlan.buildWindowed .release .stored BalancePlan.midwayCluster.accounts.reverse
    (BalancePlan.midwayCluster.transfersFrom 4) 4).getD ⟨[], [], [], []⟩

def midwayDelivered : Delivery :=
  (runFrom step (start [] midwayPlan) (acceptedAll midwayPlan)).getD (start [] midwayPlan)

theorem windowed_delivered_midway :
    Cluster.empty.run BalancePlan.midwayHistory = some BalancePlan.midwayCluster ∧
    AvoidGenesisIds BalancePlan.midwayCluster.accounts.reverse ∧
    BalancePlan.buildWindowed .release .stored BalancePlan.midwayCluster.accounts.reverse
      (BalancePlan.midwayCluster.transfersFrom 4) 4 = some midwayPlan ∧
    runFrom step (start [] midwayPlan) (acceptedAll midwayPlan) = some midwayDelivered ∧
    ∃ book, midwayDelivered.target = some book ∧
      BalancePlan.Restored BalancePlan.midwayCluster.accounts.reverse book := by
  have hsource : Cluster.empty.run BalancePlan.midwayHistory = some BalancePlan.midwayCluster := by
    decide +kernel
  have hgen : AvoidGenesisIds BalancePlan.midwayCluster.accounts.reverse := by decide +kernel
  have hplan : BalancePlan.buildWindowed .release .stored
      BalancePlan.midwayCluster.accounts.reverse (BalancePlan.midwayCluster.transfersFrom 4) 4 =
      some midwayPlan := by decide +kernel
  have hrun : runFrom step (start [] midwayPlan) (acceptedAll midwayPlan) =
      some midwayDelivered := by decide +kernel
  obtain ⟨book, hbook, _, hrestored⟩ := windowed_delivered hsource (by decide)
    (List.reverse_perm _) hgen (List.Perm.refl _) hplan hrun
  have hsuccess : midwayDelivered.migration.Succeeded := by decide +kernel
  have halive : midwayDelivered.migration.task ≠ .died := by decide +kernel
  exact ⟨hsource, hgen, hplan, hrun, book, hbook, hrestored hsuccess halive⟩

end Delivery

end TbManager
