import TbManager.Outcome
import TbManager.PlanShape

/-!
# Histories of a source cluster

The cluster whose data file is migrated, as a state machine over committed
events. A record carries its commit timestamp. A plain transfer posts its
amount, a pending transfer reserves it, a post releases the reservation and
posts its own amount, a void only releases. An event the cluster would refuse
has no next state.
-/

namespace TbManager

/-- How a transfer moves balances. -/
inductive Phase where
  | plain
  | pending
  | postPending
  | voidPending
  deriving DecidableEq, Repr

namespace Transfer

def phase (t : Transfer) : Option Phase :=
  match t.flags.pending, t.flags.postPendingTransfer, t.flags.voidPendingTransfer with
  | false, false, false => some .plain
  | true, false, false => some .pending
  | false, true, false => some .postPending
  | false, false, true => some .voidPending
  | _, _, _ => none

/-- The amount a transfer adds to the posted balances of its two accounts. -/
def postedAmount (t : Transfer) : ℕ :=
  if t.phase = some .plain ∨ t.phase = some .postPending then t.amount.toNat else 0

def effective (t : Transfer) : Posting U128 ℕ :=
  ⟨t.debitAccountId, t.creditAccountId, t.postedAmount⟩

/-- The amount of a transfer that does not reach the posted balances. -/
def withheld (t : Transfer) : Posting U128 ℕ :=
  ⟨t.debitAccountId, t.creditAccountId, t.amount.toNat - t.postedAmount⟩

/-- A transfer without pending, post and void flags. -/
def SinglePhase (t : Transfer) : Prop :=
  t.flags.pending = false ∧ t.flags.postPendingTransfer = false ∧
    t.flags.voidPendingTransfer = false

instance (t : Transfer) : Decidable t.SinglePhase :=
  inferInstanceAs (Decidable (_ ∧ _ ∧ _))

theorem postedAmount_le (t : Transfer) : t.postedAmount ≤ t.amount.toNat := by
  unfold postedAmount
  split_ifs <;> omega

theorem SinglePhase.postedAmount {t : Transfer} (h : t.SinglePhase) :
    t.postedAmount = t.amount.toNat := by
  obtain ⟨hpending, hpost, hvoid⟩ := h
  have hplain : t.phase = some .plain := by
    simp only [phase, hpending, hpost, hvoid]
  exact if_pos (.inl hplain)

theorem debitTotal_posting (i : U128) (ts : List Transfer) :
    debitTotal i (ts.map posting) =
      debitTotal i (ts.map effective) + debitTotal i (ts.map withheld) := by
  induction ts with
  | nil => rfl
  | cons t ts ih =>
      have hle := t.postedAmount_le
      simp only [List.map_cons, debitTotal_cons, ih, posting, effective, withheld]
      split_ifs <;> omega

theorem creditTotal_posting (i : U128) (ts : List Transfer) :
    creditTotal i (ts.map posting) =
      creditTotal i (ts.map effective) + creditTotal i (ts.map withheld) := by
  induction ts with
  | nil => rfl
  | cons t ts ih =>
      have hle := t.postedAmount_le
      simp only [List.map_cons, creditTotal_cons, ih, posting, effective, withheld]
      split_ifs <;> omega

theorem map_effective_of_singlePhase {ts : List Transfer} (h : ∀ t ∈ ts, t.SinglePhase) :
    ts.map effective = ts.map posting := by
  apply List.map_congr_left
  intro t ht
  rw [effective, (h t ht).postedAmount, posting]

theorem totals_withheld {ts : List Transfer} (h : ∀ t ∈ ts, t.SinglePhase) (i : U128) :
    debitTotal i (ts.map withheld) = 0 ∧ creditTotal i (ts.map withheld) = 0 := by
  have hd := debitTotal_posting i ts
  have hc := creditTotal_posting i ts
  rw [map_effective_of_singlePhase h] at hd hc
  omega

end Transfer

/-- The amounts an event posts, reserves and releases on both of its accounts. -/
structure Movement where
  posted : U128
  reserved : U128
  released : U128
  deriving DecidableEq, Repr

namespace Movement

/-- The pending and the posted balance of one side; overflow is refused. -/
def apply (m : Movement) (balance : U128 × U128) : Option (U128 × U128) := do
  let reserved ← checkedAdd balance.1 m.reserved
  let pending ← checkedSub reserved m.released
  let posted ← checkedAdd balance.2 m.posted
  some (pending, posted)

def applyIf (m : Movement) (touched : Bool) (balance : U128 × U128) : Option (U128 × U128) :=
  if touched then m.apply balance else some balance

theorem applyIf_posted {m : Movement} {touched : Bool} {b b' : U128 × U128}
    (h : m.applyIf touched b = some b') :
    b'.2.toNat = b.2.toNat + if touched then m.posted.toNat else 0 := by
  unfold applyIf at h
  split_ifs at h ⊢
  · simp only [apply, Option.bind_eq_bind, Option.bind_eq_some_iff] at h
    obtain ⟨reserved, _, pending, _, posted, hposted, hb⟩ := h
    rw [← Option.some.inj hb]
    exact (checkedAdd_eq_some_iff _ _ _).1 hposted
  · rw [← Option.some.inj h, add_zero]

end Movement

namespace Account

/-- The account after a movement between the two accounts of a transfer. -/
def receive (t : Transfer) (m : Movement) (a : Account) : Option Account := do
  let debits ← m.applyIf (t.debitAccountId = a.id) (a.debitsPending, a.debitsPosted)
  let credits ← m.applyIf (t.creditAccountId = a.id) (a.creditsPending, a.creditsPosted)
  some
    { a with
      debitsPending := debits.1
      debitsPosted := debits.2
      creditsPending := credits.1
      creditsPosted := credits.2 }

/-- The fields of an account that no transfer changes. -/
def fixed (a : Account) : Account :=
  { a with debitsPending := 0, debitsPosted := 0, creditsPending := 0, creditsPosted := 0 }

/-- A movement changes balances only, and the posted ones by the posted amount. -/
structure Received (t : Transfer) (m : Movement) (a a' : Account) : Prop where
  fixed : a'.fixed = a.fixed
  debits : a'.debitsPosted.toNat =
    a.debitsPosted.toNat + if t.debitAccountId = a.id then m.posted.toNat else 0
  credits : a'.creditsPosted.toNat =
    a.creditsPosted.toNat + if t.creditAccountId = a.id then m.posted.toNat else 0

theorem received {t : Transfer} {m : Movement} {a a' : Account} (h : a.receive t m = some a') :
    Received t m a a' := by
  simp only [receive, Option.bind_eq_bind, Option.bind_eq_some_iff] at h
  obtain ⟨debits, hd, credits, hc, ha⟩ := h
  rw [← Option.some.inj ha]
  constructor
  · rfl
  · simpa using Movement.applyIf_posted hd
  · simpa using Movement.applyIf_posted hc

end Account

/-- The state of the source cluster. -/
structure Cluster where
  accounts : List Account
  transfers : List Transfer
  clock : U64
  deriving DecidableEq, Repr

inductive Event where
  | createAccount (a : Account)
  | createTransfer (t : Transfer)
  deriving DecidableEq, Repr

namespace Event

def timestamp : Event → U64
  | createAccount a => a.timestamp
  | createTransfer t => t.timestamp

def transfer? : Event → Option Transfer
  | createAccount _ => none
  | createTransfer t => some t

def account? : Event → Option Account
  | createAccount a => some a
  | createTransfer _ => none

end Event

namespace Cluster

def empty : Cluster := ⟨[], [], 0⟩

def HasAccount (s : Cluster) (id : U128) (ledger : U32) : Prop :=
  ∃ a ∈ s.accounts, a.id = id ∧ a.ledger = ledger

instance (s : Cluster) (id : U128) (ledger : U32) : Decidable (s.HasAccount id ledger) :=
  inferInstanceAs (Decidable (∃ a ∈ s.accounts, a.id = id ∧ a.ledger = ledger))

/-- The pending transfer a post or a void refers to, unless it is resolved. -/
def openPending (s : Cluster) (t : Transfer) : Option Transfer :=
  s.transfers.find? fun p =>
    p.id = t.pendingId ∧ p.phase = some .pending ∧ p.debitAccountId = t.debitAccountId ∧
      p.creditAccountId = t.creditAccountId ∧ t.amount ≤ p.amount ∧
      ∀ r ∈ s.transfers, r.pendingId = p.id →
        r.phase ≠ some .postPending ∧ r.phase ≠ some .voidPending

def movement (s : Cluster) (t : Transfer) : Option Movement :=
  match t.phase with
  | some .plain => some ⟨t.amount, 0, 0⟩
  | some .pending => some ⟨0, t.amount, 0⟩
  | some .postPending => (s.openPending t).map fun p => ⟨t.amount, 0, p.amount⟩
  | some .voidPending => (s.openPending t).map fun p => ⟨0, 0, p.amount⟩
  | none => none

def createAccount (s : Cluster) (a : Account) : Option Cluster :=
  if s.clock < a.timestamp ∧ a.id ∉ s.accounts.map Account.id ∧ a = a.fixed ∧
      a.isPadding = false then
    some { s with accounts := s.accounts ++ [a], clock := a.timestamp }
  else none

def createTransfer (s : Cluster) (t : Transfer) : Option Cluster :=
  if s.clock < t.timestamp ∧ t.id ∉ s.transfers.map Transfer.id ∧ t.isPadding = false ∧
      s.HasAccount t.debitAccountId t.ledger ∧ s.HasAccount t.creditAccountId t.ledger then do
    let m ← s.movement t
    let accounts ← s.accounts.mapM (Account.receive t m)
    some { accounts := accounts, transfers := s.transfers ++ [t], clock := t.timestamp }
  else none

def step (s : Cluster) : Event → Option Cluster
  | .createAccount a => s.createAccount a
  | .createTransfer t => s.createTransfer t

def run (s : Cluster) (events : List Event) : Option Cluster := events.foldlM step s

/-! ## What one event does -/

theorem createAccount_cases {s s' : Cluster} {a : Account} (h : s.createAccount a = some s') :
    s.clock < a.timestamp ∧ a.id ∉ s.accounts.map Account.id ∧ a = a.fixed ∧
      a.isPadding = false ∧
      s' = { s with accounts := s.accounts ++ [a], clock := a.timestamp } := by
  unfold createAccount at h
  split_ifs at h with hg
  exact ⟨hg.1, hg.2.1, hg.2.2.1, hg.2.2.2, (Option.some.inj h).symm⟩

theorem createTransfer_cases {s s' : Cluster} {t : Transfer} (h : s.createTransfer t = some s') :
    s.clock < t.timestamp ∧ t.id ∉ s.transfers.map Transfer.id ∧ t.isPadding = false ∧
      s.HasAccount t.debitAccountId t.ledger ∧ s.HasAccount t.creditAccountId t.ledger ∧
      ∃ m accounts, s.movement t = some m ∧
        s.accounts.mapM (Account.receive t m) = some accounts ∧
        s' = { accounts := accounts, transfers := s.transfers ++ [t], clock := t.timestamp } := by
  unfold createTransfer at h
  split_ifs at h with hg
  simp only [Option.bind_eq_bind, Option.bind_eq_some_iff] at h
  obtain ⟨m, hm, accounts, haccounts, hs⟩ := h
  exact ⟨hg.1, hg.2.1, hg.2.2.1, hg.2.2.2.1, hg.2.2.2.2, m, accounts, hm, haccounts,
    (Option.some.inj hs).symm⟩

theorem movement_posted {s : Cluster} {t : Transfer} {m : Movement} (h : s.movement t = some m) :
    m.posted.toNat = t.postedAmount := by
  unfold movement at h
  unfold Transfer.postedAmount
  cases hp : t.phase with
  | none => simp [hp] at h
  | some phase =>
      rw [hp] at h
      cases phase with
      | plain =>
          rw [← Option.some.inj h]
          rfl
      | pending =>
          rw [← Option.some.inj h]
          rfl
      | postPending =>
          obtain ⟨p, _, hm⟩ := Option.map_eq_some_iff.1 h
          rw [← hm]
          rfl
      | voidPending =>
          obtain ⟨p, _, hm⟩ := Option.map_eq_some_iff.1 h
          rw [← hm]
          rfl

theorem step_clock {s s' : Cluster} {e : Event} (h : s.step e = some s') :
    s.clock < e.timestamp ∧ s'.clock = e.timestamp := by
  cases e with
  | createAccount a =>
      obtain ⟨hlt, _, _, _, rfl⟩ := createAccount_cases h
      exact ⟨hlt, rfl⟩
  | createTransfer t =>
      obtain ⟨hlt, _, _, _, _, m, accounts, _, _, rfl⟩ := createTransfer_cases h
      exact ⟨hlt, rfl⟩

theorem step_transfers {s s' : Cluster} {e : Event} (h : s.step e = some s') :
    s'.transfers = s.transfers ++ e.transfer?.toList := by
  cases e with
  | createAccount a =>
      obtain ⟨_, _, _, _, rfl⟩ := createAccount_cases h
      exact (List.append_nil _).symm
  | createTransfer t =>
      obtain ⟨_, _, _, _, _, m, accounts, _, _, rfl⟩ := createTransfer_cases h
      rfl

theorem map_fixed_of_receive {t : Transfer} {m : Movement} {as as' : List Account}
    (h : as.mapM (Account.receive t m) = some as') :
    as'.map Account.fixed = as.map Account.fixed :=
  map_eq_of_mapM h fun _ _ hr => (Account.received hr).fixed

/-- Accounts are only added, and keep everything but their balances. -/
theorem step_accounts {s s' : Cluster} {e : Event} (h : s.step e = some s') :
    s'.accounts.map Account.fixed =
      s.accounts.map Account.fixed ++ e.account?.toList.map Account.fixed := by
  cases e with
  | createAccount a =>
      obtain ⟨_, _, _, _, rfl⟩ := createAccount_cases h
      exact List.map_append
  | createTransfer t =>
      obtain ⟨_, _, _, _, _, m, accounts, _, hrec, rfl⟩ := createTransfer_cases h
      exact (map_fixed_of_receive hrec).trans (List.append_nil _).symm

theorem step_fixed {s s' : Cluster} {e : Event} (h : s.step e = some s') :
    s.accounts.map Account.fixed <+: s'.accounts.map Account.fixed := by
  rw [step_accounts h]
  exact List.prefix_append _ _

/-! ## Posted balances -/

/-- The balances of a state are those of a base plus the sums of the transfers
committed since, and these name accounts of the state only. -/
structure Tracks (base : U128 → Totals ℕ) (done : List Transfer) (s : Cluster) : Prop where
  ids : (s.accounts.map Account.id).Nodup
  debits : ∀ a ∈ s.accounts, a.debitsPosted.toNat =
    (base a.id).debits + debitTotal a.id (done.map Transfer.effective)
  credits : ∀ a ∈ s.accounts, a.creditsPosted.toNat =
    (base a.id).credits + creditTotal a.id (done.map Transfer.effective)
  named : ∀ t ∈ done, t.debitAccountId ∈ s.accounts.map Account.id ∧
    t.creditAccountId ∈ s.accounts.map Account.id
  unopened : ∀ i, i ∉ s.accounts.map Account.id → base i = ⟨0, 0⟩

section Tracks

variable {base : U128 → Totals ℕ} {done : List Transfer} {s s' : Cluster}

/-- Nothing has been posted yet to an account that does not exist. -/
theorem Tracks.totals_unopened (h : Tracks base done s) {i : U128}
    (hi : i ∉ s.accounts.map Account.id) :
    debitTotal i (done.map Transfer.effective) = 0 ∧
      creditTotal i (done.map Transfer.effective) = 0 := by
  constructor
  · apply debitTotal_eq_zero
    intro p hp heq
    obtain ⟨t, ht, rfl⟩ := List.mem_map.1 hp
    exact hi (heq ▸ (h.named t ht).1)
  · apply creditTotal_eq_zero
    intro p hp heq
    obtain ⟨t, ht, rfl⟩ := List.mem_map.1 hp
    exact hi (heq ▸ (h.named t ht).2)

theorem tracks_createAccount {a : Account} (hi : Tracks base done s)
    (h : s.createAccount a = some s') : Tracks base done s' := by
  obtain ⟨_, hnew, hzero, _, rfl⟩ := createAccount_cases h
  have hbase := hi.unopened a.id hnew
  have htotals := hi.totals_unopened hnew
  have hids : (s.accounts ++ [a]).map Account.id = s.accounts.map Account.id ++ [a.id] :=
    List.map_append
  constructor
  · rw [hids, ← List.concat_eq_append]
    exact hi.ids.concat hnew
  · intro b hb
    rcases List.mem_append.1 hb with hb | hb
    · exact hi.debits b hb
    · rw [List.mem_singleton.1 hb, hbase, htotals.1, hzero]
      rfl
  · intro b hb
    rcases List.mem_append.1 hb with hb | hb
    · exact hi.credits b hb
    · rw [List.mem_singleton.1 hb, hbase, htotals.2, hzero]
      rfl
  · intro t ht
    rw [hids]
    exact ⟨List.mem_append_left _ (hi.named t ht).1, List.mem_append_left _ (hi.named t ht).2⟩
  · intro i hnot
    rw [hids] at hnot
    exact hi.unopened i fun hmem => hnot (List.mem_append_left _ hmem)

theorem tracks_createTransfer {t : Transfer} (hi : Tracks base done s)
    (h : s.createTransfer t = some s') : Tracks base (done ++ [t]) s' := by
  obtain ⟨_, _, _, hdebit, hcredit, m, accounts, hm, hrec, rfl⟩ := createTransfer_cases h
  have hposted := movement_posted hm
  have hids : accounts.map Account.id = s.accounts.map Account.id :=
    map_eq_of_mapM hrec fun _ _ hr => (congrArg Account.id (Account.received hr).fixed :)
  have hexists : ∀ i, s.HasAccount i t.ledger → i ∈ s.accounts.map Account.id := by
    rintro i ⟨a, ha, hid, _⟩
    exact List.mem_map.2 ⟨a, ha, hid⟩
  constructor
  · exact hids ▸ hi.ids
  · intro b hb
    obtain ⟨a, ha, hr⟩ := exists_of_mem_mapM hrec hb
    have hab : b.id = a.id := (congrArg Account.id (Account.received hr).fixed :)
    rw [List.map_append, debitTotal_append, List.map_singleton, debitTotal_cons,
      (Account.received hr).debits, hi.debits a ha, hab, hposted, add_assoc]
    rfl
  · intro b hb
    obtain ⟨a, ha, hr⟩ := exists_of_mem_mapM hrec hb
    have hab : b.id = a.id := (congrArg Account.id (Account.received hr).fixed :)
    rw [List.map_append, creditTotal_append, List.map_singleton, creditTotal_cons,
      (Account.received hr).credits, hi.credits a ha, hab, hposted, add_assoc]
    rfl
  · intro u hu
    change u.debitAccountId ∈ accounts.map Account.id ∧ u.creditAccountId ∈ accounts.map Account.id
    rw [hids]
    rcases List.mem_append.1 hu with hu | hu
    · exact hi.named u hu
    · rw [List.mem_singleton.1 hu]
      exact ⟨hexists _ hdebit, hexists _ hcredit⟩
  · intro i hnot
    exact hi.unopened i (hids ▸ hnot)

theorem tracks_step {e : Event} (hi : Tracks base done s) (h : s.step e = some s') :
    Tracks base (done ++ e.transfer?.toList) s' := by
  cases e with
  | createAccount a =>
      change Tracks base (done ++ []) s'
      rw [List.append_nil]
      exact tracks_createAccount hi h
  | createTransfer t => exact tracks_createTransfer hi h

end Tracks

/-! ## The invariant of a history -/

/-- The account a transfer names was created before it, on its ledger. -/
def Opened (s : Cluster) (i : U128) (t : Transfer) : Prop :=
  ∃ a ∈ s.accounts, a.id = i ∧ a.ledger = t.ledger ∧ a.timestamp < t.timestamp

structure Inv (s : Cluster) : Prop where
  tracks : Tracks (fun _ => ⟨0, 0⟩) s.transfers s
  created : ∀ a ∈ s.accounts, a.timestamp ≤ s.clock
  opened : ∀ t ∈ s.transfers, s.Opened t.debitAccountId t ∧ s.Opened t.creditAccountId t

namespace Inv

variable {s : Cluster} (h : Inv s)
include h

theorem ids : (s.accounts.map Account.id).Nodup := h.tracks.ids

theorem debits {a : Account} (ha : a ∈ s.accounts) :
    a.debitsPosted.toNat = debitTotal a.id (s.transfers.map Transfer.effective) := by
  rw [h.tracks.debits a ha, zero_add]

theorem credits {a : Account} (ha : a ∈ s.accounts) :
    a.creditsPosted.toNat = creditTotal a.id (s.transfers.map Transfer.effective) := by
  rw [h.tracks.credits a ha, zero_add]

end Inv

theorem inv_empty : Inv empty := by
  refine ⟨⟨List.nodup_nil, ?_, ?_, ?_, fun _ _ => rfl⟩, ?_, ?_⟩
  all_goals simp [empty]

theorem Opened.mono {s s' : Cluster} {i : U128} {t : Transfer} (h : s.Opened i t)
    (hfixed : s.accounts.map Account.fixed <+: s'.accounts.map Account.fixed) :
    s'.Opened i t := by
  obtain ⟨a, ha, hid, hl, hts⟩ := h
  obtain ⟨b, hb, hba⟩ := List.mem_map.1 (hfixed.subset (List.mem_map_of_mem ha))
  have hbid : b.id = a.id := (congrArg Account.id hba :)
  have hbl : b.ledger = a.ledger := (congrArg Account.ledger hba :)
  have hbts : b.timestamp = a.timestamp := (congrArg Account.timestamp hba :)
  exact ⟨b, hb, hbid.trans hid, hbl.trans hl, hbts ▸ hts⟩

theorem Opened.mem_ids {s : Cluster} {i : U128} {t : Transfer} (h : s.Opened i t) :
    i ∈ s.accounts.map Account.id := by
  obtain ⟨a, ha, hid, _, _⟩ := h
  exact List.mem_map.2 ⟨a, ha, hid⟩

theorem created_step {s s' : Cluster} {e : Event} (hi : Inv s) (h : s.step e = some s') :
    ∀ a ∈ s'.accounts, a.timestamp ≤ s'.clock := by
  have hclock := step_clock h
  have hold : ∀ a ∈ s.accounts, a.timestamp ≤ s'.clock := by
    intro a ha
    have hle := hi.created a ha
    rw [hclock.2]
    bv_omega
  cases e with
  | createAccount a =>
      obtain ⟨_, _, _, _, rfl⟩ := createAccount_cases h
      intro b hb
      rcases List.mem_append.1 hb with hb | hb
      · exact hold b hb
      · rw [List.mem_singleton.1 hb]
        exact BitVec.le_refl _
  | createTransfer t =>
      obtain ⟨_, _, _, _, _, m, accounts, _, hrec, rfl⟩ := createTransfer_cases h
      intro b hb
      obtain ⟨a, ha, hr⟩ := exists_of_mem_mapM hrec hb
      have hts : b.timestamp = a.timestamp :=
        (congrArg Account.timestamp (Account.received hr).fixed :)
      rw [hts]
      exact hold a ha

theorem opened_step {s s' : Cluster} {e : Event} (hi : Inv s) (h : s.step e = some s') :
    ∀ t ∈ s'.transfers, s'.Opened t.debitAccountId t ∧ s'.Opened t.creditAccountId t := by
  have hfixed := step_fixed h
  rw [step_transfers h]
  intro u hu
  rcases List.mem_append.1 hu with hu | hu
  · exact ⟨(hi.opened u hu).1.mono hfixed, (hi.opened u hu).2.mono hfixed⟩
  · cases e with
    | createAccount a => cases hu
    | createTransfer t =>
        obtain ⟨hlt, _, _, hdebit, hcredit, _⟩ := createTransfer_cases h
        have hopen : ∀ i, s.HasAccount i t.ledger → s.Opened i t := by
          rintro i ⟨a, ha, hid, hl⟩
          have hle := hi.created a ha
          exact ⟨a, ha, hid, hl, by bv_omega⟩
        have hut : u = t := List.mem_singleton.1 hu
        rw [hut]
        exact ⟨(hopen _ hdebit).mono hfixed, (hopen _ hcredit).mono hfixed⟩

theorem inv_step {s s' : Cluster} {e : Event} (hi : Inv s) (h : s.step e = some s') : Inv s' := by
  refine ⟨?_, created_step hi h, opened_step hi h⟩
  rw [step_transfers h]
  exact tracks_step hi.tracks h

/-! ## Runs -/

theorem run_cons {s s' : Cluster} {e : Event} {es : List Event}
    (h : s.run (e :: es) = some s') : ∃ s₁, s.step e = some s₁ ∧ s₁.run es = some s' := by
  rw [run, List.foldlM_cons, Option.bind_eq_bind, Option.bind_eq_some_iff] at h
  exact h

theorem run_append {s s' : Cluster} {es es' : List Event} (h : s.run (es ++ es') = some s') :
    ∃ s₁, s.run es = some s₁ ∧ s₁.run es' = some s' := by
  rw [run, List.foldlM_append, Option.bind_eq_bind, Option.bind_eq_some_iff] at h
  exact h

theorem inv_run {s s' : Cluster} {es : List Event} (hi : Inv s) (h : s.run es = some s') :
    Inv s' := by
  induction es generalizing s with
  | nil =>
      cases h
      exact hi
  | cons e es ih =>
      obtain ⟨s₁, hstep, hrun⟩ := run_cons h
      exact ih (inv_step hi hstep) hrun

theorem tracks_run {base : U128 → Totals ℕ} {done : List Transfer} {s s' : Cluster}
    {es : List Event} (hi : Tracks base done s) (h : s.run es = some s') :
    Tracks base (done ++ es.filterMap Event.transfer?) s' := by
  induction es generalizing s done with
  | nil =>
      cases h
      rw [List.filterMap_nil, List.append_nil]
      exact hi
  | cons e es ih =>
      obtain ⟨s₁, hstep, hrun⟩ := run_cons h
      have hes := ih (tracks_step hi hstep) hrun
      rw [List.append_assoc] at hes
      cases e <;> exact hes

theorem run_transfers {s s' : Cluster} {es : List Event} (h : s.run es = some s') :
    s'.transfers = s.transfers ++ es.filterMap Event.transfer? := by
  induction es generalizing s with
  | nil =>
      cases h
      exact (List.append_nil _).symm
  | cons e es ih =>
      obtain ⟨s₁, hstep, hrun⟩ := run_cons h
      rw [ih hrun, step_transfers hstep, List.append_assoc]
      cases e <;> rfl

theorem run_accounts {s s' : Cluster} {es : List Event} (h : s.run es = some s') :
    s'.accounts.map Account.fixed =
      s.accounts.map Account.fixed ++ (es.filterMap Event.account?).map Account.fixed := by
  induction es generalizing s with
  | nil =>
      cases h
      exact (List.append_nil _).symm
  | cons e es ih =>
      obtain ⟨s₁, hstep, hrun⟩ := run_cons h
      rw [ih hrun, step_accounts hstep, List.append_assoc]
      cases e <;> rfl

theorem run_fixed {s s' : Cluster} {es : List Event} (h : s.run es = some s') :
    s.accounts.map Account.fixed <+: s'.accounts.map Account.fixed := by
  rw [run_accounts h]
  exact List.prefix_append _ _

/-- Accounts are created with zero balances. -/
theorem run_created {s s' : Cluster} {es : List Event} (h : s.run es = some s') :
    ∀ a ∈ es.filterMap Event.account?, a = a.fixed := by
  induction es generalizing s with
  | nil => simp
  | cons e es ih =>
      obtain ⟨s₁, hstep, hrun⟩ := run_cons h
      cases e with
      | createAccount a =>
          obtain ⟨_, _, hzero, _, _⟩ := createAccount_cases hstep
          intro b hb
          rcases List.mem_cons.1 hb with rfl | hb
          · exact hzero
          · exact ih hrun b hb
      | createTransfer t => exact ih hrun

/-- The events of a run have strictly increasing timestamps. -/
theorem run_sorted {s s' : Cluster} {es : List Event} (h : s.run es = some s') :
    (∀ e ∈ es, s.clock < e.timestamp) ∧
      es.Pairwise fun e f => e.timestamp < f.timestamp := by
  induction es generalizing s with
  | nil => simp
  | cons e es ih =>
      obtain ⟨s₁, hstep, hrun⟩ := run_cons h
      obtain ⟨hlt, hclock⟩ := step_clock hstep
      obtain ⟨hgt, hpair⟩ := ih hrun
      rw [hclock] at hgt
      constructor
      · intro f hf
        rcases List.mem_cons.1 hf with rfl | hf
        · exact hlt
        · have hef := hgt f hf
          bv_omega
      · exact List.pairwise_cons.2 ⟨hgt, hpair⟩

theorem run_clock_lt {s s' : Cluster} {es : List Event} {c : U64} (h : s.run es = some s')
    (hs : s.clock < c) (hes : ∀ e ∈ es, e.timestamp < c) : s'.clock < c := by
  induction es generalizing s with
  | nil =>
      cases h
      exact hs
  | cons e es ih =>
      obtain ⟨s₁, hstep, hrun⟩ := run_cons h
      apply ih hrun
      · rw [(step_clock hstep).2]
        exact hes e List.mem_cons_self
      · exact fun f hf => hes f (List.mem_cons_of_mem e hf)

/-! ## The state at a point in time -/

def eventsBefore (c : U64) (es : List Event) : List Event := es.filter fun e => e.timestamp < c

def eventsFrom (c : U64) (es : List Event) : List Event := es.filter fun e => c ≤ e.timestamp

theorem eventsBefore_append_eventsFrom {c : U64} {es : List Event}
    (h : es.Pairwise fun e f => e.timestamp < f.timestamp) :
    eventsBefore c es ++ eventsFrom c es = es := by
  induction es with
  | nil => rfl
  | cons e es ih =>
      rw [List.pairwise_cons] at h
      by_cases he : e.timestamp < c
      · rw [eventsBefore, eventsFrom, List.filter_cons_of_pos (by simpa using he),
          List.filter_cons_of_neg (by simpa using he), List.cons_append]
        exact congrArg _ (ih h.2)
      · have hrest : ∀ f ∈ e :: es, ¬ f.timestamp < c := by
          intro f hf
          rcases List.mem_cons.1 hf with rfl | hf
          · exact he
          · have hef := h.1 f hf
            bv_omega
        have hnone : eventsBefore c (e :: es) = [] :=
          List.filter_eq_nil_iff.2 fun f hf => by simpa using hrest f hf
        have hall : eventsFrom c (e :: es) = e :: es :=
          List.filter_eq_self.2 fun f hf => by simpa using hrest f hf
        rw [hnone, hall, List.nil_append]

/-- Every history passes through its state at a given time. -/
theorem run_split {s s' : Cluster} {es : List Event} (h : s.run es = some s') (c : U64) :
    ∃ s₁, s.run (eventsBefore c es) = some s₁ ∧ s₁.run (eventsFrom c es) = some s' := by
  rw [← eventsBefore_append_eventsFrom (c := c) (run_sorted h).2] at h
  exact run_append h

/-! ## Transfers before and after a point in time -/

/-- The transfers committed before a point in time. -/
def transfersBefore (s : Cluster) (c : U64) : List Transfer :=
  s.transfers.filter fun t => t.timestamp < c

/-- The transfers of the window that starts at a point in time. -/
def transfersFrom (s : Cluster) (c : U64) : List Transfer :=
  s.transfers.filter fun t => c ≤ t.timestamp

theorem transfers_perm (s : Cluster) (c : U64) :
    (s.transfersBefore c ++ s.transfersFrom c).Perm s.transfers := by
  have hfrom : s.transfersFrom c = s.transfers.filter fun t => !decide (t.timestamp < c) := by
    apply List.filter_congr
    intro t _
    simp only [← decide_not, BitVec.not_lt]
  rw [hfrom]
  exact List.filter_append_perm _ _

theorem debitTotal_cut (s : Cluster) (c : U64) (f : Transfer → Posting U128 ℕ) (i : U128) :
    debitTotal i (s.transfers.map f) =
      debitTotal i ((s.transfersBefore c).map f) + debitTotal i ((s.transfersFrom c).map f) := by
  rw [← debitTotal_append, ← List.map_append]
  exact (debitTotal_perm i ((s.transfers_perm c).map f)).symm

theorem creditTotal_cut (s : Cluster) (c : U64) (f : Transfer → Posting U128 ℕ) (i : U128) :
    creditTotal i (s.transfers.map f) =
      creditTotal i ((s.transfersBefore c).map f) + creditTotal i ((s.transfersFrom c).map f) := by
  rw [← creditTotal_append, ← List.map_append]
  exact (creditTotal_perm i ((s.transfers_perm c).map f)).symm

theorem eq_of_id_eq {s : Cluster} (hi : Inv s) {a b : Account} (ha : a ∈ s.accounts)
    (hb : b ∈ s.accounts) (h : a.id = b.id) : a = b :=
  List.inj_on_of_nodup_map hi.ids ha hb h

/-- An account created in the window was not touched before the window. -/
theorem late_untouched {s : Cluster} (hi : Inv s) {c : U64} {a : Account} (ha : a ∈ s.accounts)
    (hlate : c ≤ a.timestamp) {t : Transfer} (ht : t ∈ s.transfersBefore c) :
    t.debitAccountId ≠ a.id ∧ t.creditAccountId ≠ a.id := by
  have hmem : t ∈ s.transfers ∧ t.timestamp < c := by simpa [transfersBefore] using ht
  have hother : ∀ i, s.Opened i t → i ≠ a.id := by
    rintro i ⟨b, hb, hid, _, hts⟩ heq
    rw [eq_of_id_eq hi hb ha (hid.trans heq)] at hts
    have hlt := hmem.2
    bv_omega
  have hopened := hi.opened t hmem.1
  exact ⟨hother _ hopened.1, hother _ hopened.2⟩

theorem late_totals {s : Cluster} (hi : Inv s) {c : U64} {a : Account} (ha : a ∈ s.accounts)
    (hlate : c ≤ a.timestamp) (f : Transfer → Posting U128 ℕ)
    (hf : ∀ t, (f t).debit = t.debitAccountId ∧ (f t).credit = t.creditAccountId) :
    debitTotal a.id ((s.transfersBefore c).map f) = 0 ∧
      creditTotal a.id ((s.transfersBefore c).map f) = 0 := by
  constructor
  · apply debitTotal_eq_zero
    intro p hp
    obtain ⟨t, ht, rfl⟩ := List.mem_map.1 hp
    rw [(hf t).1]
    exact (late_untouched hi ha hlate ht).1
  · apply creditTotal_eq_zero
    intro p hp
    obtain ⟨t, ht, rfl⟩ := List.mem_map.1 hp
    rw [(hf t).2]
    exact (late_untouched hi ha hlate ht).2

/-- Transfers stay on the ledger of their accounts. -/
theorem ledger_of_mem {s : Cluster} (hi : Inv s) {t : Transfer} (ht : t ∈ s.transfers) {l : U32} :
    (t.debitAccountId ∈ (s.accounts.filter fun a => a.ledger = l).map Account.id ↔ t.ledger = l) ∧
      (t.creditAccountId ∈ (s.accounts.filter fun a => a.ledger = l).map Account.id ↔
        t.ledger = l) := by
  have hiff : ∀ i, s.Opened i t →
      (i ∈ (s.accounts.filter fun a => a.ledger = l).map Account.id ↔ t.ledger = l) := by
    rintro i ⟨a, ha, hid, hl, _⟩
    constructor
    · intro hmem
      obtain ⟨b, hb, hbi⟩ := List.mem_map.1 hmem
      have hb' : b ∈ s.accounts ∧ b.ledger = l := by simpa using hb
      have hab := eq_of_id_eq hi ha hb'.1 (hid.trans hbi.symm)
      rw [← hl, hab, hb'.2]
    · intro htl
      exact List.mem_map.2 ⟨a, by simpa using ⟨ha, hl.trans htl⟩, hid⟩
  exact ⟨hiff _ (hi.opened t ht).1, hiff _ (hi.opened t ht).2⟩

end Cluster

end TbManager
