import TbManager.SnapshotReplay

/-!
# Balance limits during the import

The target refuses a transfer that breaks the limit flag of an account. The
synthetic transfers of an account reach the target credit side first, so each
prefix of the replay shows an account with no posting, with its credits only, or
complete.
-/

namespace TbManager

attribute [local irreducible] genesisCreditId genesisDebitId

def WithinLimits (flags : AccountFlags) (t : Totals ℕ) : Prop :=
  (flags.debitsMustNotExceedCredits = true → t.debits ≤ t.credits) ∧
    (flags.creditsMustNotExceedDebits = true → t.credits ≤ t.debits)

namespace BalancePlan

/-- After each transfer of the replay, every account is within the limits of the
flags it was created with. -/
def KeepsLimits (plan : BalancePlan) : Prop :=
  ∀ ps, ps <+: plan.syntheticPostings → ∃ book, plan.openBook.replay ps = some book ∧
    ∀ a ∈ plan.genesisAccounts ++ plan.regularAccounts, ∀ t, book a.id = some t →
      WithinLimits (convertAccount a true).flags t

theorem withinLimits_none (t : Totals ℕ) : WithinLimits ⟨0⟩ t :=
  ⟨fun h => absurd h (by decide), fun h => absurd h (by decide)⟩

theorem touching_postings_self {a : Account} : touching a.id a.postings = a.postings := by
  apply List.filter_eq_self.2
  intro p hp
  rcases Account.mem_postings hp with ⟨_, hc⟩ | ⟨hd, _⟩
  · exact decide_eq_true (.inr hc)
  · exact decide_eq_true (.inl hd)

theorem touching_flatMap_postings {i : U128} {as : List Account}
    (hid : ∀ a ∈ as, a.id ≠ i)
    (hgen : ∀ a ∈ as, i ≠ genesisCreditId a.ledger ∧ i ≠ genesisDebitId a.ledger) :
    touching i (as.flatMap Account.postings) = [] := by
  apply List.filter_eq_nil_iff.2
  intro p hp
  obtain ⟨a, ha, hp⟩ := List.mem_flatMap.1 hp
  rw [decide_eq_true_iff]
  rcases Account.mem_postings hp with ⟨hd, hc⟩ | ⟨hd, hc⟩
  · rintro (h | h)
    · exact (hgen a ha).1 (h.symm.trans hd)
    · exact hid a ha (hc.symm.trans h)
  · rintro (h | h)
    · exact hid a ha (hd.symm.trans h)
    · exact (hgen a ha).2 (h.symm.trans hc)

/-- Where no account with a credit limit has credits, every prefix of an account's
own postings is within its limits: debits only follow the full credits. -/
theorem withinLimits_of_prefix {a : Account} (hw : WithinLimits a.flags a.postedTotals)
    (hzero : a.flags.creditsMustNotExceedDebits = true → a.creditsPosted = 0)
    (hgen : a.id ≠ genesisCreditId a.ledger ∧ a.id ≠ genesisDebitId a.ledger)
    {qs : List (Posting U128 ℕ)} (hqs : qs <+: a.postings) :
    WithinLimits a.flags ⟨debitTotal a.id qs, creditTotal a.id qs⟩ := by
  have hd := debitTotal_le_of_prefix (i := a.id) hqs
  have hc := creditTotal_le_of_prefix (i := a.id) hqs
  rw [Account.debitTotal_postings, if_neg hgen.1.symm, if_pos rfl, zero_add] at hd
  rw [Account.creditTotal_postings, if_neg hgen.2.symm, if_pos rfl, add_zero] at hc
  constructor
  · intro hflag
    have hle : a.debitsPosted.toNat ≤ a.creditsPosted.toNat := hw.1 hflag
    change debitTotal a.id qs ≤ creditTotal a.id qs
    rcases List.prefix_or_prefix_of_prefix hqs (List.prefix_append _ _) with hpre | hpre
    · have hnone := debitTotal_le_of_prefix (i := a.id) hpre
      rw [Account.debitTotal_positivePosting, if_neg hgen.1.symm] at hnone
      omega
    · have hfull := creditTotal_le_of_prefix (i := a.id) hpre
      rw [Account.creditTotal_positivePosting, if_pos rfl] at hfull
      omega
  · intro hflag
    have hnone : a.creditsPosted.toNat = 0 := by
      rw [hzero hflag]
      rfl
    change creditTotal a.id qs ≤ debitTotal a.id qs
    omega

section Shape

variable {accounts : List Account} {plan : BalancePlan}

theorem touching_synthetic (h : Shape accounts plan) (hf : FreshIds accounts) {a : Account}
    (ha : a ∈ plan.regularAccounts) : touching a.id plan.syntheticPostings = a.postings := by
  have hf' : FreshIds plan.regularAccounts := hf.congr h.idPerm h.ledgerPerm
  obtain ⟨as, bs, hsplit⟩ := List.append_of_mem ha
  have hnodup := hf'.distinct
  rw [hsplit, List.map_append, List.map_cons, List.nodup_middle, List.nodup_cons,
    List.mem_append, not_or] at hnodup
  have hgen : ∀ b ∈ plan.regularAccounts,
      a.id ≠ genesisCreditId b.ledger ∧ a.id ≠ genesisDebitId b.ledger :=
    hf'.notGenesis a ha
  rw [hsplit] at hgen
  rw [syntheticPostings, h.postings, hsplit, List.flatMap_append, List.flatMap_cons,
    touching_append, touching_append, touching_postings_self]
  rw [touching_flatMap_postings, touching_flatMap_postings, List.nil_append, List.append_nil]
  · exact fun b hb heq => hnodup.1.2 (heq ▸ List.mem_map_of_mem hb)
  · exact fun b hb => hgen b (List.mem_append_right as (List.mem_cons_of_mem a hb))
  · exact fun b hb heq => hnodup.1.1 (heq ▸ List.mem_map_of_mem hb)
  · exact fun b hb => hgen b (List.mem_append_left _ hb)

theorem replay_initial (h : Shape accounts plan) {ps : List (Posting U128 ℕ)}
    (hps : ps <+: plan.syntheticPostings) :
    plan.openBook.replay ps = some fun i =>
      if i ∈ (plan.genesisAccounts ++ plan.regularAccounts).map Account.id then
        some ⟨debitTotal i ps, creditTotal i ps⟩
      else none :=
  Book.opening_replay_eq fun _ hp => h.posting_open (hps.subset hp)

theorem withinLimits_convertAccount (a : Account) (imported : Bool) (t : Totals ℕ) :
    WithinLimits (convertAccount a imported).flags t ↔ WithinLimits a.flags t := by
  simp only [WithinLimits, convertAccount_debitsMustNotExceedCredits,
    convertAccount_creditsMustNotExceedDebits]

theorem keepsLimits_of_no_credits (h : Shape accounts plan) (hf : FreshIds accounts)
    (hw : ∀ a ∈ accounts, WithinLimits a.flags a.postedTotals)
    (hzero : ∀ a ∈ accounts, a.flags.creditsMustNotExceedDebits = true → a.creditsPosted = 0) :
    plan.KeepsLimits := by
  intro ps hps
  refine ⟨_, replay_initial h hps, ?_⟩
  intro b hb t ht
  rw [withinLimits_convertAccount]
  rw [if_pos (List.mem_map_of_mem hb), Option.some.injEq] at ht
  rcases List.mem_append.1 hb with hb | hb
  · rw [h.genesisFlags b hb]
    exact withinLimits_none t
  · obtain ⟨a, ha, hab⟩ := h.exists_account hb
    have hflags : a.flags = b.flags := (congrArg Account.flags hab :)
    have hcredits : a.creditsPosted = b.creditsPosted := (congrArg Account.creditsPosted hab :)
    have htotals : a.postedTotals = b.postedTotals := (congrArg Account.postedTotals hab :)
    have hwb := hw a ha
    have hzb := hzero a ha
    rw [hflags, htotals] at hwb
    rw [hflags, hcredits] at hzb
    have hf' : FreshIds plan.regularAccounts := hf.congr h.idPerm h.ledgerPerm
    have hpre : touching b.id ps <+: b.postings := by
      rw [← touching_synthetic h hf hb]
      exact hps.filter _
    rw [← ht, ← debitTotal_touching, ← creditTotal_touching]
    exact withinLimits_of_prefix hwb hzb (hf'.notGenesis b hb b hb) hpre

theorem exists_prefix_credit (h : Shape accounts plan) (hf : FreshIds accounts) {b : Account}
    (hb : b ∈ plan.regularAccounts) : ∃ ps, ps <+: plan.syntheticPostings ∧
      debitTotal b.id ps = 0 ∧ creditTotal b.id ps = b.creditsPosted.toNat := by
  have hf' : FreshIds plan.regularAccounts := hf.congr h.idPerm h.ledgerPerm
  have hgen := hf'.notGenesis b hb
  obtain ⟨as, bs, hsplit⟩ := List.append_of_mem hb
  have hnodup := hf'.distinct
  rw [hsplit, List.map_append, List.map_cons, List.nodup_middle, List.nodup_cons,
    List.mem_append, not_or] at hnodup
  have hself := hgen b hb
  rw [hsplit] at hgen
  have has : touching b.id (as.flatMap Account.postings) = [] :=
    touching_flatMap_postings (fun a ha heq => hnodup.1.1 (heq ▸ List.mem_map_of_mem ha))
      fun a ha => hgen a (List.mem_append_left _ ha)
  refine ⟨as.flatMap Account.postings ++
    Account.positivePosting (genesisCreditId b.ledger) b.id b.creditsPosted, ?_, ?_, ?_⟩
  · rw [syntheticPostings, h.postings, hsplit, List.flatMap_append, List.flatMap_cons,
      Account.postings, List.append_assoc]
    exact (List.prefix_append_right_inj _).2 (List.prefix_append _ _)
  · rw [debitTotal_append, ← debitTotal_touching, has, Account.debitTotal_positivePosting,
      if_neg hself.1.symm]
    rfl
  · rw [creditTotal_append, ← creditTotal_touching, has, Account.creditTotal_positivePosting,
      if_pos rfl, creditTotal_nil, zero_add]

theorem no_credits_of_keepsLimits (h : Shape accounts plan) (hf : FreshIds accounts)
    (hkeeps : plan.KeepsLimits) :
    ∀ a ∈ accounts, a.flags.creditsMustNotExceedDebits = true → a.creditsPosted = 0 := by
  intro a ha hflag
  obtain ⟨b, hb, hba⟩ := h.exists_planned ha
  have hflags : b.flags = a.flags := (congrArg Account.flags hba :)
  have hcredits : b.creditsPosted = a.creditsPosted := (congrArg Account.creditsPosted hba :)
  obtain ⟨ps, hps, hd, hc⟩ := exists_prefix_credit h hf hb
  obtain ⟨book, hbook, hlimits⟩ := hkeeps ps hps
  rw [replay_initial h hps, Option.some.injEq] at hbook
  have hmem : b ∈ plan.genesisAccounts ++ plan.regularAccounts := List.mem_append_right _ hb
  have hbid := congrFun hbook b.id
  rw [if_pos (List.mem_map_of_mem hmem), hd, hc] at hbid
  have hw := hlimits b hmem _ hbid.symm
  rw [withinLimits_convertAccount, hflags, hcredits] at hw
  apply BitVec.eq_of_toNat_eq
  exact Nat.le_zero.1 (hw.2 hflag)

end Shape

/-- Replaying the synthetic transfers keeps every account within its limit flags
exactly when no account with a credit limit has posted credits. -/
theorem keepsLimits_iff (ord : IterOrder U32 (List Account)) (accounts : List Account)
    (windowedMode : Bool) (hf : FreshIds accounts)
    (hw : ∀ a ∈ accounts, WithinLimits a.flags a.postedTotals) :
    Delivers (fun prof => buildSnapshotImpl prof ord accounts windowedMode) fun plan =>
      (plan.KeepsLimits ↔
        ∀ a ∈ accounts, a.flags.creditsMustNotExceedDebits = true → a.creditsPosted = 0) := by
  refine ⟨buildSnapshotImpl_release ord accounts windowedMode, fun prof plan hplan => ?_⟩
  have h := buildSnapshotImpl_shape hplan
  exact ⟨no_credits_of_keepsLimits h hf, keepsLimits_of_no_credits h hf hw⟩

/-- An account whose credits must not exceed its debits, with both posted. -/
def creditLimited : Account :=
  { Account.holding 1 1 5 3 10 with flags := ⟨4⟩ }

theorem creditLimited_fresh : FreshIds [creditLimited] := by decide +kernel

theorem creditLimited_withinLimits :
    ∀ a ∈ [creditLimited], WithinLimits a.flags a.postedTotals := by
  intro a ha
  rw [List.mem_singleton.1 ha]
  exact ⟨fun h => absurd h (by decide), fun _ => by decide⟩

theorem keepsLimits_iff_creditLimited :
    FreshIds [creditLimited] ∧
    (∀ a ∈ [creditLimited], WithinLimits a.flags a.postedTotals) ∧
    Delivers (fun prof => buildSnapshotImpl prof .stored [creditLimited] false) fun plan =>
      (plan.KeepsLimits ↔ ∀ a ∈ [creditLimited],
        a.flags.creditsMustNotExceedDebits = true → a.creditsPosted = 0) :=
  ⟨creditLimited_fresh, creditLimited_withinLimits,
    keepsLimits_iff .stored [creditLimited] false creditLimited_fresh creditLimited_withinLimits⟩

/-- The credit of 3 is posted before the debit of 5, so the limit is exceeded in
between although the final balances respect it. -/
theorem creditLimited_not_keepsLimits :
    FreshIds [creditLimited] ∧
    (∀ a ∈ [creditLimited], WithinLimits a.flags a.postedTotals) ∧
    ∃ plan, build .release .stored [creditLimited] = some plan ∧ ¬ plan.KeepsLimits := by
  refine ⟨creditLimited_fresh, creditLimited_withinLimits, ?_⟩
  obtain ⟨plan, hplan⟩ := buildSnapshotImpl_release .stored [creditLimited] false
  refine ⟨plan, hplan, fun hkeeps => ?_⟩
  have hzero := no_credits_of_keepsLimits (buildSnapshotImpl_shape hplan) creditLimited_fresh hkeeps
  have habs := hzero creditLimited List.mem_cons_self (by decide)
  exact absurd habs (by decide)

end BalancePlan

end TbManager
