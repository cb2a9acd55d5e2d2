import TbManager.ImportRun

/-!
# Linked chains and batches

A chain of linked records has to end within its batch. The importer keeps the
linked flag of accounts and of transfers of the window, and cuts the records into
batches of a fixed size.
-/

namespace TbManager

/-! ## The ends of the pieces -/

section Chunks

variable {α : Type*} {n : ℕ} {xs : List α}

theorem getLast?_piece (hn : 0 < n) (i : ℕ) (hi : i * n < xs.length) :
    ((xs.drop (i * n)).take n).getLast? =
      if (i + 1) * n ≤ xs.length then xs[(i + 1) * n - 1]? else xs.getLast? := by
  have hsucc : (i + 1) * n = i * n + n := Nat.succ_mul i n
  rw [List.getLast?_eq_getElem?, List.getLast?_eq_getElem?, List.length_take, List.length_drop,
    hsucc]
  by_cases hfull : i * n + n ≤ xs.length
  · rw [if_pos hfull, Nat.min_eq_left (by omega), List.getElem?_take_of_lt (by omega),
      List.getElem?_drop]
    congr 1
    omega
  · rw [if_neg hfull, Nat.min_eq_right (by omega), List.getElem?_take_of_lt (by omega),
      List.getElem?_drop]
    congr 1
    omega

theorem piece_mem_chunks (hn : 0 < n) {i : ℕ} (hi : i * n < xs.length) :
    (xs.drop (i * n)).take n ∈ chunks n xs := by
  refine List.mem_map.2 ⟨i, List.mem_range.2 ?_, rfl⟩
  rw [Nat.lt_iff_add_one_le, Nat.le_div_iff_mul_le hn, Nat.succ_mul]
  omega

/-- The last elements of the pieces are those at the multiples of the size and the last one. -/
theorem chunks_getLast?_iff (hn : 0 < n) (P : α → Prop) :
    (∀ piece ∈ chunks n xs, ∀ x, piece.getLast? = some x → P x) ↔
      (∀ k x, xs[(k + 1) * n - 1]? = some x → P x) ∧ ∀ x, xs.getLast? = some x → P x := by
  constructor
  · intro h
    constructor
    · intro k x hx
      have hlt := (List.getElem?_eq_some_iff.1 hx).1
      have hsucc : (k + 1) * n = k * n + n := Nat.succ_mul k n
      have hk : k * n < xs.length := by omega
      apply h _ (piece_mem_chunks hn hk) x
      rw [getLast?_piece hn k hk, if_pos (by omega)]
      exact hx
    · intro x hx
      have hpos : 0 < xs.length := by
        rw [List.getLast?_eq_getElem?] at hx
        have hlt := (List.getElem?_eq_some_iff.1 hx).1
        omega
      -- the piece of the last index
      have hle : (xs.length - 1) / n * n ≤ xs.length - 1 := Nat.div_mul_le_self _ _
      have hlt : xs.length - 1 < ((xs.length - 1) / n + 1) * n := by
        rw [Nat.mul_comm]
        exact Nat.lt_mul_div_succ _ hn
      have hk : (xs.length - 1) / n * n < xs.length := by omega
      apply h _ (piece_mem_chunks hn hk) x
      rw [getLast?_piece hn _ hk]
      split_ifs with hfull
      · have hlast : ((xs.length - 1) / n + 1) * n - 1 = xs.length - 1 := by omega
        rw [hlast, ← List.getLast?_eq_getElem?]
        exact hx
      · exact hx
  · rintro ⟨hends, hlast⟩ piece hpiece x hx
    obtain ⟨i, hi, rfl⟩ := List.mem_map.1 hpiece
    have hmul : (i + 1) * n ≤ xs.length + n - 1 :=
      (Nat.le_div_iff_mul_le hn).1 (List.mem_range.1 hi)
    have hsucc : (i + 1) * n = i * n + n := Nat.succ_mul i n
    rw [getLast?_piece hn i (by omega)] at hx
    split_ifs at hx
    · exact hends i x hx
    · exact hlast x hx

end Chunks

/-! ## Linked events -/

namespace Event

def linked : Event → Bool
  | createAccount a => a.flags.linked
  | createTransfer t => t.flags.linked

end Event

def Request.EndsLinked (r : Request) : Prop := ∃ e, r.events.getLast? = some e ∧ e.linked = true

@[simp] theorem convertAccount_linked (acc : Account) (imported : Bool) :
    (convertAccount acc imported).flags.linked = acc.flags.linked := by
  simp only [AccountFlags.linked, mask_ne_zero]
  exact convertAccount_flag acc imported (by omega)

@[simp] theorem convertWindowedTransfer_linked (t : Transfer) :
    (convertWindowedTransfer t).flags.linked = t.flags.linked := by
  simp only [TransferFlags.linked, mask_ne_zero]
  exact convertWindowedTransfer_flag t (by omega)

theorem convertTransfer_linked (t : SyntheticTransfer) :
    (convertTransfer t).flags.linked = false := by
  have hflags : (convertTransfer t).flags = ⟨1#16 <<< 8⟩ := rfl
  rw [hflags]
  decide

namespace BalancePlan

def BoundariesUnlinked {α : Type*} (linked : α → Bool) (records : List α) : Prop :=
  ∀ k x, records[(k + 1) * batchSize - 1]? = some x → linked x = false

def LastUnlinked {α : Type*} (linked : α → Bool) (records : List α) : Prop :=
  ∀ x, records.getLast? = some x → linked x = false

/-- The batches of one phase end without an open chain exactly when the records at their ends
are not linked. -/
theorem pieces_unlinked_iff {α : Type*} {request : List α → Request} {f : α → Event}
    {linked : α → Bool} (hrequest : ∀ xs, (request xs).events = xs.map f)
    (hlinked : ∀ x, (f x).linked = linked x) (records : List α) :
    (∀ r ∈ (chunks batchSize records).map request, ¬ r.EndsLinked) ↔
      BoundariesUnlinked linked records ∧ LastUnlinked linked records := by
  have hends (piece : List α) : ¬ (request piece).EndsLinked ↔
      ∀ x, piece.getLast? = some x → linked x = false := by
    rw [Request.EndsLinked, hrequest, List.getLast?_map]
    cases piece.getLast? with
    | none => simp
    | some x => simp [hlinked]
  rw [List.forall_mem_map, BoundariesUnlinked, LastUnlinked,
    ← chunks_getLast?_iff (by decide) fun x => linked x = false]
  exact forall₂_congr fun piece _ => hends piece

/-- Whatever the client replies, as long as it refuses batches with an open chain, no submitted
batch has one. -/
def BatchesClosed (prof : Profile) (plan : BalancePlan) : Prop :=
  ∀ replies outcome, plan.importAllWithProgress prof replies = some outcome →
    (∀ k r, outcome.1.submitted[k]? = some r → r.EndsLinked → replies k ≠ .results 0) →
      ∀ r ∈ outcome.1.submitted, ¬ r.EndsLinked

theorem batchesClosed_iff_requests (prof : Profile) {plan : BalancePlan} (hfits : plan.FitsVecs) :
    plan.BatchesClosed prof ↔ ∀ r ∈ plan.batches.map Batch.request, ¬ r.EndsLinked := by
  constructor
  · intro hclosed r hr hlinked
    classical
    -- the client refuses the open chains only
    let replies : ℕ → Reply := fun k =>
      if ∃ r, (plan.batches.map Batch.request)[k]? = some r ∧ r.EndsLinked then .results 1
      else .results 0
    obtain ⟨outcome, heq, htraversal⟩ := importAllWithProgress_traversal prof replies hfits
    have hpre := htraversal.submitted_isPrefix
    have hrefuses (k : ℕ) (r : Request) (hk : outcome.1.submitted[k]? = some r)
        (hopen : r.EndsLinked) : replies k ≠ .results 0 := by
      have hlt := (List.getElem?_eq_some_iff.1 hk).1
      have hget : (plan.batches.map Batch.request)[k]? = some r := by
        obtain ⟨more, hmore⟩ := hpre
        rw [← hmore, List.getElem?_append_left hlt, hk]
      have hreply : replies k = .results 1 := if_pos ⟨r, hget, hopen⟩
      rw [hreply]
      decide
    have hall := hclosed replies outcome heq hrefuses
    cases htraversal with
    | finished haccepted => exact hall r hr hlinked
    | failed accepted b rest e hbatches haccepted hfailure =>
        have hget : (plan.batches.map Batch.request)[accepted.length]? = some b.request := by
          rw [hbatches, List.map_append, List.getElem?_append_right (by rw [List.length_map]),
            List.length_map, Nat.sub_self]
          rfl
        have hreply : replies accepted.length = .results 0 := by
          apply if_neg
          rintro ⟨r', hr', hopen⟩
          rw [hget, Option.some.injEq] at hr'
          subst hr'
          exact hall b.request (List.mem_append_right _ (List.mem_singleton_self _)) hopen
        exact reply_of_failure hfailure hreply
  · intro hunlinked replies outcome heq _ r hr
    obtain ⟨outcome', heq', htraversal⟩ := importAllWithProgress_traversal prof replies hfits
    rw [heq, Option.some.injEq] at heq'
    subst heq'
    exact hunlinked r (htraversal.submitted_isPrefix.subset hr)

theorem batches_unlinked_iff (plan : BalancePlan) :
    (∀ r ∈ plan.batches.map Batch.request, ¬ r.EndsLinked) ↔
      (BoundariesUnlinked (fun a => a.flags.linked) plan.genesisAccounts ∧
        LastUnlinked (fun a => a.flags.linked) plan.genesisAccounts) ∧
      (BoundariesUnlinked (fun a => a.flags.linked) plan.regularAccounts ∧
        LastUnlinked (fun a => a.flags.linked) plan.regularAccounts) ∧
      BoundariesUnlinked (fun t => t.flags.linked) plan.windowedTransfers ∧
        LastUnlinked (fun t => t.flags.linked) plan.windowedTransfers := by
  have hrequests : plan.batches.map Batch.request =
      (plan.phases.map Prod.snd).flatten := by
    have htagged : plan.batches.map Batch.request =
        (plan.batches.map Batch.tagged).map Prod.snd := by
      rw [List.map_map]
      rfl
    rw [htagged, batches_tagged, phaseRequests, List.map_flatMap, ← List.flatMap_def]
    simp only [List.map_map, Function.comp_def, List.map_id']
  have haccounts (xs : List Account) : (accountRequest xs).events =
      xs.map fun a => Event.createAccount (convertAccount a true) := List.map_map
  have hsynthetic (xs : List SyntheticTransfer) : (syntheticRequest xs).events =
      xs.map (Event.createTransfer ∘ convertTransfer) := List.map_map
  have hwindowed (xs : List Transfer) : (windowedRequest xs).events =
      xs.map (Event.createTransfer ∘ convertWindowedTransfer) := List.map_map
  have hunlinked : ∀ r ∈ (chunks batchSize plan.syntheticTransfers).map syntheticRequest,
      ¬ r.EndsLinked :=
    (pieces_unlinked_iff hsynthetic (fun t => convertTransfer_linked t) _).2
      ⟨fun _ _ _ => rfl, fun _ _ => rfl⟩
  have hphases : (∀ r ∈ plan.batches.map Batch.request, ¬ r.EndsLinked) ↔
      (∀ r ∈ (chunks batchSize plan.genesisAccounts).map accountRequest, ¬ r.EndsLinked) ∧
      (∀ r ∈ (chunks batchSize plan.regularAccounts).map accountRequest, ¬ r.EndsLinked) ∧
      ∀ r ∈ (chunks batchSize plan.windowedTransfers).map windowedRequest, ¬ r.EndsLinked := by
    rw [hrequests]
    simp only [phases, List.map_cons, List.map_nil, List.flatten_cons, List.flatten_nil,
      List.append_nil, List.forall_mem_append]
    tauto
  rw [hphases, pieces_unlinked_iff haccounts (fun a => convertAccount_linked a true),
    pieces_unlinked_iff haccounts (fun a => convertAccount_linked a true),
    pieces_unlinked_iff hwindowed (fun t => convertWindowedTransfer_linked t)]

/-- With all chains complete, the import submits no batch with an open chain exactly when no
record before a multiple of the batch size is linked. -/
theorem batchesClosed_iff (prof : Profile) {plan : BalancePlan} (hfits : plan.FitsVecs)
    (hregular : LastUnlinked (fun a => a.flags.linked) plan.regularAccounts)
    (hwindowed : LastUnlinked (fun t => t.flags.linked) plan.windowedTransfers) :
    plan.BatchesClosed prof ↔
      (BoundariesUnlinked (fun a => a.flags.linked) plan.genesisAccounts ∧
        LastUnlinked (fun a => a.flags.linked) plan.genesisAccounts) ∧
      BoundariesUnlinked (fun a => a.flags.linked) plan.regularAccounts ∧
      BoundariesUnlinked (fun t => t.flags.linked) plan.windowedTransfers := by
  rw [batchesClosed_iff_requests prof hfits, batches_unlinked_iff, and_iff_left hregular,
    and_iff_left hwindowed]

theorem batchesClosed_iff_of_shape (prof : Profile) {plan : BalancePlan} (hfits : plan.FitsVecs)
    {accounts : List Account} (hshape : Shape accounts plan)
    (hregular : LastUnlinked (fun a => a.flags.linked) plan.regularAccounts)
    (hwindowed : LastUnlinked (fun t => t.flags.linked) plan.windowedTransfers) :
    plan.BatchesClosed prof ↔
      BoundariesUnlinked (fun a => a.flags.linked) plan.regularAccounts ∧
      BoundariesUnlinked (fun t => t.flags.linked) plan.windowedTransfers := by
  have hgenesis : ∀ a ∈ plan.genesisAccounts, a.flags.linked = false := by
    intro a ha
    rw [hshape.genesisFlags a ha]
    decide
  have hunlinked : BoundariesUnlinked (fun a => a.flags.linked) plan.genesisAccounts ∧
      LastUnlinked (fun a => a.flags.linked) plan.genesisAccounts :=
    ⟨fun _ a ha => hgenesis a (List.mem_of_getElem? ha),
      fun a ha => hgenesis a (List.mem_of_getLast? ha)⟩
  rw [batchesClosed_iff_requests prof hfits, batches_unlinked_iff, and_iff_left hregular,
    and_iff_left hwindowed, and_iff_right hunlinked]

def chainAccounts : List Account :=
  (List.range 8001).map fun i =>
    { Account.holding (BitVec.ofNat 128 (i + 1)) 1 0 0 (BitVec.ofNat 64 (i + 1)) with
      flags := ⟨if i = 7999 then 1 else 0⟩ }

def chainAcross : BalancePlan where
  genesisAccounts := []
  regularAccounts := chainAccounts
  syntheticTransfers := []
  windowedTransfers := []

theorem chainAcross_regularAccounts : chainAcross.regularAccounts = chainAccounts := by
  rw [chainAcross]

theorem chainAcross_fits : chainAcross.FitsVecs where
  genesisAccounts := by decide
  regularAccounts := by
    rw [FitsVec, chainAcross_regularAccounts, chainAccounts, List.length_map, List.length_range]
    norm_num
  syntheticTransfers := by decide
  windowedTransfers := by decide

theorem chainAcross_lastUnlinked :
    LastUnlinked (fun a => a.flags.linked) chainAcross.regularAccounts := by
  intro a ha
  rw [chainAcross_regularAccounts, chainAccounts, List.getLast?_map, List.getLast?_range, if_neg (by decide),
    Option.map_some, Option.some.injEq, if_neg (by decide)] at ha
  rw [← ha]
  rfl

theorem chainAcross_windowedUnlinked :
    LastUnlinked (fun t => t.flags.linked) chainAcross.windowedTransfers := by
  intro t ht
  cases ht

theorem batchesClosed_iff_chainAcross :
    chainAcross.BatchesClosed .release ↔
      (BoundariesUnlinked (fun a => a.flags.linked) chainAcross.genesisAccounts ∧
        LastUnlinked (fun a => a.flags.linked) chainAcross.genesisAccounts) ∧
      BoundariesUnlinked (fun a => a.flags.linked) chainAcross.regularAccounts ∧
      BoundariesUnlinked (fun t => t.flags.linked) chainAcross.windowedTransfers :=
  batchesClosed_iff .release chainAcross_fits chainAcross_lastUnlinked chainAcross_windowedUnlinked

/-- All chains of the plan are complete and a batch ends within one. -/
theorem chainAcross_cut :
    LastUnlinked (fun a => a.flags.linked) chainAcross.regularAccounts ∧
    LastUnlinked (fun t => t.flags.linked) chainAcross.windowedTransfers ∧
    ¬ chainAcross.BatchesClosed .release := by
  refine ⟨chainAcross_lastUnlinked, chainAcross_windowedUnlinked, ?_⟩
  rw [batchesClosed_iff_requests .release chainAcross_fits, batches_unlinked_iff]
  rintro ⟨_, ⟨hboundaries, _⟩, _⟩
  have hindex : (0 + 1) * batchSize - 1 = 7999 := rfl
  have hget : chainAcross.regularAccounts[(0 + 1) * batchSize - 1]? = some
      { Account.holding (BitVec.ofNat 128 (7999 + 1)) 1 0 0 (BitVec.ofNat 64 (7999 + 1)) with
        flags := ⟨1⟩ } := by
    rw [hindex, chainAcross_regularAccounts, chainAccounts, List.getElem?_map, List.getElem?_range (by decide), Option.map_some,
      if_pos rfl]
  have hlinked := hboundaries 0 _ hget
  cases hlinked

end BalancePlan

end TbManager
