import TbManager.DecimalText
import TbManager.MigrationPreflight
import TbManager.Paging

/-!
# Browsing the cached accounts

`GetMigrationAccounts` returns a page of the cached accounts that pass a filter. The pages are
exactly the accounts that satisfy the filter, unless a string of the filter is not a number: such a
string is passed over, where no account satisfies it.
-/

namespace TbManager

/-! ## Requests and answers -/

structure MigrationAccountFilter where
  id : Option String
  ledger : Option U32
  code : Option U32
  flags : Option U32
  userData32 : Option U32
  userData64 : Option U64
  userData128 : Option String
  deriving DecidableEq, Repr

structure GetMigrationAccountsRequest where
  page : U32
  limit : U32
  filter : Option MigrationAccountFilter
  deriving DecidableEq, Repr

structure GetMigrationAccountsResponse where
  accounts : List AccountRecord
  page : U32
  limit : U32
  totalCount : U64
  deriving DecidableEq, Repr

structure NotFound where
  message : String
  deriving DecidableEq, Repr

/-- A number given as text; text that does not parse excludes nothing. -/
def passesText (value : Option String) (x : U128) : Bool :=
  match value with
  | some s =>
    match parseU128 s with
    | some v => x = v
    | none => true
  | none => true

def passesField {w : ℕ} (value : Option (BitVec w)) (x : BitVec w) : Bool :=
  match value with
  | some v => x = v
  | none => true

def MigrationAccountFilter.passes (f : MigrationAccountFilter) (a : Account) : Bool :=
  passesText f.id a.id && passesField f.ledger a.ledger &&
    passesField f.code (a.code.setWidth 32) && passesField f.flags (a.flags.raw.setWidth 32) &&
    passesField f.userData32 a.userData32 && passesField f.userData64 a.userData64 &&
    passesText f.userData128 a.userData128

def passesFilter (filter : Option MigrationAccountFilter) (a : Account) : Bool :=
  match filter with
  | some f => f.passes a
  | none => true

def pageLimit (limit : U32) : ℕ := max (min limit.toNat 500) 1

/-- One page of the cached accounts that pass the filter. Page times limit is below 2^41. -/
def getMigrationAccounts (cached : Option CachedMigrationPlan)
    (request : GetMigrationAccountsRequest) : Except NotFound GetMigrationAccountsResponse :=
  match cached with
  | none => .error ⟨"No cached migration plan. Run PlanMigration first."⟩
  | some plan =>
    let limit := pageLimit request.limit
    let matched := plan.accounts.filter (passesFilter request.filter)
    .ok
      { accounts := ((matched.drop (request.page.toNat * limit)).take limit).map accountToProto
        page := request.page
        limit := request.limit
        totalCount := BitVec.ofNat 64 matched.length }

/-! ## What a filter asks for -/

/-- The account has the value of every field that is set, text being read as a decimal number. -/
def MigrationAccountFilter.Satisfies (f : MigrationAccountFilter) (a : Account) : Prop :=
  (∀ s ∈ f.id, Denotes s a.id.toNat) ∧ (∀ x ∈ f.ledger, a.ledger = x) ∧
    (∀ x ∈ f.code, a.code.toNat = x.toNat) ∧ (∀ x ∈ f.flags, a.flags.raw.toNat = x.toNat) ∧
    (∀ x ∈ f.userData32, a.userData32 = x) ∧ (∀ x ∈ f.userData64, a.userData64 = x) ∧
    ∀ s ∈ f.userData128, Denotes s a.userData128.toNat

instance (s : String) (n : ℕ) : Decidable (Denotes s n) :=
  decidable_of_iff _ (denotes_iff s n).symm

instance (f : MigrationAccountFilter) (a : Account) : Decidable (f.Satisfies a) :=
  inferInstanceAs (Decidable (_ ∧ _))

def satisfying (filter : Option MigrationAccountFilter) (accounts : List Account) : List Account :=
  accounts.filter fun a => ∀ f ∈ filter, f.Satisfies a

def TextParses (filter : Option MigrationAccountFilter) : Prop :=
  ∀ f ∈ filter, (∀ s ∈ f.id, FitsU128 s) ∧ ∀ s ∈ f.userData128, FitsU128 s

/-- While the cache does not change, all records satisfy the filter, all pages together are the
accounts that satisfy it, and every page tells their number. -/
def BrowsesExactly (plan : CachedMigrationPlan) (filter : Option MigrationAccountFilter)
    (limit : U32) : Prop :=
  ∃ responses : U32 → GetMigrationAccountsResponse,
    (∀ page, getMigrationAccounts (some plan) ⟨page, limit, filter⟩ = .ok (responses page)) ∧
    (∀ page, ∀ record ∈ (responses page).accounts,
      ∃ a ∈ satisfying filter plan.accounts, record = accountToProto a) ∧
    (List.range (2 ^ 32)).flatMap (fun p => (responses (BitVec.ofNat 32 p)).accounts) =
      (satisfying filter plan.accounts).map accountToProto ∧
    ∀ page, (responses page).totalCount.toNat = (satisfying filter plan.accounts).length

/-! ## What passes and what satisfies -/

section Filter

variable {a : Account} {f : MigrationAccountFilter} {filter : Option MigrationAccountFilter}

theorem passesText_iff (value : Option String) (x : U128) :
    passesText value x = true ↔ ∀ s ∈ value, FitsU128 s → Denotes s x.toNat := by
  cases value with
  | none => exact ⟨fun _ s hs => (by cases hs), fun _ => rfl⟩
  | some s =>
      simp only [passesText, Option.mem_some_iff, forall_eq', fitsU128_iff]
      cases hs : parseU128 s with
      | none =>
          exact ⟨fun _ h => (by obtain ⟨v, hv⟩ := h; cases hv), fun _ => rfl⟩
      | some v =>
          rw [decide_eq_true_eq, ← parseU128_eq_some_iff, hs, Option.some.injEq]
          exact ⟨fun h _ => h.symm, fun h => (h ⟨v, rfl⟩).symm⟩

theorem passesField_iff {w : ℕ} (value : Option (BitVec w)) (x : BitVec w) :
    passesField value x = true ↔ ∀ v ∈ value, x = v := by
  cases value with
  | none => exact ⟨fun _ v hv => (by cases hv), fun _ => rfl⟩
  | some v => simp [passesField]

theorem eq_setWidth_iff (x : U16) (v : U32) : x.setWidth 32 = v ↔ x.toNat = v.toNat := by
  rw [← BitVec.toNat_inj, BitVec.toNat_setWidth_of_le (by decide)]

theorem satisfies_iff (f : MigrationAccountFilter) (a : Account) :
    f.Satisfies a ↔ f.passes a = true ∧ (∀ s ∈ f.id, FitsU128 s) ∧
      ∀ s ∈ f.userData128, FitsU128 s := by
  have htext : ∀ (value : Option String) (x : U128), (∀ s ∈ value, Denotes s x.toNat) ↔
      passesText value x = true ∧ ∀ s ∈ value, FitsU128 s := by
    intro value x
    rw [passesText_iff]
    constructor
    · exact fun h => ⟨fun s hs _ => h s hs, fun s hs => ⟨x.toNat, x.isLt, h s hs⟩⟩
    · exact fun h s hs => h.1 s hs (h.2 s hs)
  simp only [MigrationAccountFilter.Satisfies, MigrationAccountFilter.passes, Bool.and_eq_true,
    htext, passesField_iff, eq_setWidth_iff]
  tauto

theorem satisfiesAll_iff (filter : Option MigrationAccountFilter) (a : Account) :
    (∀ f ∈ filter, f.Satisfies a) ↔ passesFilter filter a = true ∧ TextParses filter := by
  cases filter with
  | none =>
      exact ⟨fun _ => ⟨rfl, fun f hf => (by cases hf)⟩, fun _ f hf => (by cases hf)⟩
  | some f =>
      simp only [Option.mem_some_iff, forall_eq', satisfies_iff, passesFilter, TextParses]

/-- Exactly the accounts that pass are those that satisfy the filter, if its text parses or none
passes. -/
theorem satisfying_eq_iff (filter : Option MigrationAccountFilter) (accounts : List Account) :
    satisfying filter accounts = accounts.filter (passesFilter filter) ↔
      TextParses filter ∨ ∀ a ∈ accounts, passesFilter filter a = false := by
  unfold satisfying
  by_cases hparses : TextParses filter
  · refine ⟨fun _ => .inl hparses, fun _ => List.filter_congr fun a _ => ?_⟩
    rw [Bool.eq_iff_iff, decide_eq_true_eq, satisfiesAll_iff]
    exact and_iff_left hparses
  · have hnone : accounts.filter (fun a => ∀ f ∈ filter, f.Satisfies a) = [] :=
      List.filter_eq_nil_iff.2 fun a _ h =>
        hparses ((satisfiesAll_iff filter a).1 (of_decide_eq_true h)).2
    rw [hnone, eq_comm, List.filter_eq_nil_iff]
    constructor
    · exact fun h => .inr fun a ha => Bool.eq_false_iff.2 (h a ha)
    · exact fun h a ha => Bool.eq_false_iff.1 (h.resolve_left hparses a ha)

theorem satisfying_sublist (filter : Option MigrationAccountFilter) (accounts : List Account) :
    (satisfying filter accounts).Sublist (accounts.filter (passesFilter filter)) := by
  refine List.monotone_filter_right accounts fun a h => ?_
  exact ((satisfiesAll_iff filter a).1 (of_decide_eq_true h)).1

end Filter

/-! ## The pages -/

theorem flatMap_pages {α β : Type*} (f : α → β) (limit : ℕ) (xs : List α) {n : ℕ}
    (hn : n ≤ 2 ^ 32) :
    (List.range n).flatMap (fun p =>
      ((xs.drop ((BitVec.ofNat 32 p).toNat * limit)).take limit).map f) =
        (xs.take (n * limit)).map f := by
  rw [← Paging.flatMap_page, List.map_flatMap]
  refine List.flatMap_congr fun p hp => ?_
  rw [List.mem_range] at hp
  rw [BitVec.toNat_ofNat, Nat.mod_eq_of_lt (by omega), Paging.page]

/-- The pages are exact if and only if the text of the filter parses or no cached account has its
other fields, and the page numbers reach all accounts that pass. -/
theorem browsesExactly_iff {plan : CachedMigrationPlan} (hfits : FitsVec plan.accounts)
    (filter : Option MigrationAccountFilter) (limit : U32) :
    BrowsesExactly plan filter limit ↔
      (TextParses filter ∨ ∀ a ∈ plan.accounts, passesFilter filter a = false) ∧
        (plan.accounts.filter (passesFilter filter)).length ≤ 2 ^ 32 * pageLimit limit := by
  have hlt : (plan.accounts.filter (passesFilter filter)).length < 2 ^ 64 :=
    lt_trans (hfits.filter (passesFilter filter)) (by decide)
  have hcount := BitVec.toNat_ofNat (plan.accounts.filter (passesFilter filter)).length 64
  rw [Nat.mod_eq_of_lt hlt] at hcount
  have hpages := flatMap_pages accountToProto (pageLimit limit)
    (plan.accounts.filter (passesFilter filter)) (le_refl (2 ^ 32))
  have hsub := satisfying_sublist filter plan.accounts
  rw [← satisfying_eq_iff]
  constructor
  · rintro ⟨responses, hresponses, -, hall, htotal⟩
    have hresponse : ∀ page, responses page = _ := fun page =>
      (Except.ok.inj (hresponses page)).symm
    simp only [hresponse] at hall htotal
    have hlength := htotal 0
    rw [hcount] at hlength
    have htaken := congrArg List.length (hpages.symm.trans hall)
    rw [List.length_map, List.length_map, List.length_take, ← hlength] at htaken
    exact ⟨hsub.eq_of_length hlength.symm, by omega⟩
  · rintro ⟨hsame, hreach⟩
    refine ⟨fun page => _, fun page => rfl, fun page record hrecord => ?_, ?_, fun page => ?_⟩
    · obtain ⟨a, ha, rfl⟩ := List.mem_map.1 hrecord
      rw [hsame]
      exact ⟨a, List.mem_of_mem_drop (List.mem_of_mem_take ha), rfl⟩
    · rw [hsame]
      exact hpages.trans (by rw [List.take_of_length_le hreach])
    · rw [hsame]
      exact hcount

def twoAccountsPlan : CachedMigrationPlan where
  accounts := [.holding 7 1 0 0 3, .holding 8 1 0 0 4]
  syntheticTransfers := []
  windowedTransfers := []

def idFilter (id : String) : MigrationAccountFilter :=
  ⟨some id, some 1, none, none, none, none, none⟩

theorem browsesExactly_iff_parsed :
    BrowsesExactly twoAccountsPlan (some (idFilter (toString 7))) 1 := by
  have hfits : FitsVec twoAccountsPlan.accounts := by decide
  have hparses : TextParses (some (idFilter (toString 7))) := by
    intro f hf
    cases hf
    refine ⟨fun s hs => ?_, fun s hs => (by cases hs)⟩
    cases hs
    exact ⟨7, by decide, denotes_toString 7⟩
  have hlength : twoAccountsPlan.accounts.length ≤ 2 ^ 32 * pageLimit 1 := by decide
  exact (browsesExactly_iff hfits (some (idFilter (toString 7))) 1).2
    ⟨.inl hparses, (List.length_filter_le _ _).trans hlength⟩

/-- Text that is not a number is passed over: both accounts are returned. -/
theorem unparsedId_returned :
    getMigrationAccounts (some twoAccountsPlan) ⟨0, 500, some (idFilter "seven")⟩ =
      .ok ⟨twoAccountsPlan.accounts.map accountToProto, 0, 500, 2⟩ ∧
    satisfying (some (idFilter "seven")) twoAccountsPlan.accounts = [] ∧
    ¬ BrowsesExactly twoAccountsPlan (some (idFilter "seven")) 500 := by
  have hunparsed : parseU128 "seven" = none := by decide +kernel
  have hpassed : twoAccountsPlan.accounts.filter (passesFilter (some (idFilter "seven"))) =
      twoAccountsPlan.accounts := by
    have hall : ∀ a ∈ twoAccountsPlan.accounts, a.ledger = 1 := by decide
    refine List.filter_eq_self.2 fun a ha => ?_
    simp [passesFilter, MigrationAccountFilter.passes, idFilter, passesText, passesField, hunparsed,
      hall a ha]
  have hreturned : getMigrationAccounts (some twoAccountsPlan)
      ⟨0, 500, some (idFilter "seven")⟩ =
        .ok ⟨twoAccountsPlan.accounts.map accountToProto, 0, 500, 2⟩ := by
    simp only [getMigrationAccounts, hpassed]
    rfl
  have hnone : satisfying (some (idFilter "seven")) twoAccountsPlan.accounts = [] := by
    refine List.filter_eq_nil_iff.2 fun a _ h => ?_
    obtain ⟨v, hv⟩ := (fitsU128_iff "seven").1
      ((((satisfiesAll_iff _ a).1 (of_decide_eq_true h)).2 _ rfl).1 "seven" rfl)
    rw [hunparsed] at hv
    cases hv
  refine ⟨hreturned, hnone, ?_⟩
  rintro ⟨responses, hresponses, -, -, htotal⟩
  have hzero := htotal 0
  rw [← Except.ok.inj (hreturned.symm.trans (hresponses 0)), hnone] at hzero
  exact absurd hzero (by decide)

end TbManager
