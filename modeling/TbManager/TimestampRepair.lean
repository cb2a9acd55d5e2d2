import TbManager.CsvPlan

/-!
# The repair of timestamps

Two loops make timestamps strictly increasing: that of the uploaded transfers and that of the
accounts of a snapshot. Where no build overflows, both compute the least repair.
-/

namespace TbManager.BalancePlan

theorem bump_of_debug {prev ts ts' : U64} (h : bump .debug prev ts = some ts') :
    (∀ prof, bump prof prev ts = some ts') ∧ ts'.toNat = max ts.toNat (prev.toNat + 1) := by
  unfold bump at h ⊢
  split_ifs at h ⊢ with hle
  · have hsum := (checkedAdd_eq_some_iff prev 1 ts').1 h
    change ts'.toNat = prev.toNat + 1 at hsum
    have hlt := ts'.isLt
    have hadd : ∀ prof : Profile, prof.add prev 1 = some (prev + 1) :=
      fun prof => prof.add_of_lt (by change prev.toNat + 1 < 2 ^ 64; omega)
    have hnext := hadd .debug
    rw [h] at hnext
    refine ⟨fun prof => (hadd prof).trans hnext.symm, ?_⟩
    rw [BitVec.le_def] at hle
    omega
  · rw [BitVec.le_def] at hle
    refine ⟨fun _ => h, ?_⟩
    rw [← Option.some.inj h]
    omega

section Loops

variable {start : U64} {transfers out : List Transfer}

theorem dedupeTimestamps_of_debug (h : dedupeTimestamps .debug start transfers = some out)
    (prof : Profile) : dedupeTimestamps prof start transfers = some out := by
  induction transfers generalizing start out with
  | nil => exact h
  | cons t transfers ih =>
      simp only [dedupeTimestamps, Option.bind_eq_bind, Option.bind_eq_some_iff] at h ⊢
      obtain ⟨timestamp, hbump, rest, hrest, hout⟩ := h
      exact ⟨timestamp, (bump_of_debug hbump).1 prof, rest, ih hrest, hout⟩

theorem dedupeTimestamps_raise (h : dedupeTimestamps .debug start transfers = some out) :
    (out.map fun t => t.timestamp.toNat) =
      raise start.toNat (transfers.map fun t => t.timestamp.toNat) := by
  induction transfers generalizing start out with
  | nil =>
      cases h
      rfl
  | cons t transfers ih =>
      simp only [dedupeTimestamps, Option.bind_eq_bind, Option.bind_eq_some_iff] at h
      obtain ⟨timestamp, hbump, rest, hrest, hout⟩ := h
      rw [← Option.some.inj hout, List.map_cons, List.map_cons, raise, ih hrest,
        (bump_of_debug hbump).2]

theorem eq_of_untimed_of_times {ts us : List Transfer}
    (huntimed : ts.map Transfer.untimed = us.map Transfer.untimed)
    (htimes : ts.map Transfer.timestamp = us.map Transfer.timestamp) : ts = us := by
  induction ts generalizing us with
  | nil => exact (List.map_eq_nil_iff.1 huntimed.symm).symm
  | cons t ts ih =>
      cases us with
      | nil => cases huntimed
      | cons u us =>
          rw [List.map_cons, List.map_cons, List.cons.injEq] at huntimed htimes
          have hfields : ∀ v : Transfer, { v.untimed with timestamp := v.timestamp } = v :=
            fun _ => rfl
          rw [ih huntimed.2 htimes.2, ← hfields t, huntimed.1, htimes.1, hfields u]

/-- The loop over accounts computes the timestamps of the loop over transfers, and overflows
where that one does. -/
theorem bumpTimestamps_eq_dedupeTimestamps (prof : Profile) {accounts : List Account}
    (hsame : accounts.map Account.timestamp = transfers.map Transfer.timestamp) :
    (bumpTimestamps prof start accounts).map (List.map Account.timestamp) =
      (dedupeTimestamps prof start transfers).map (List.map Transfer.timestamp) := by
  induction accounts generalizing start transfers with
  | nil =>
      rw [List.map_eq_nil_iff.1 hsame.symm]
      rfl
  | cons acc accounts ih =>
      cases transfers with
      | nil => cases hsame
      | cons t transfers =>
          rw [List.map_cons, List.map_cons, List.cons.injEq] at hsame
          simp only [bumpTimestamps, dedupeTimestamps, Option.bind_eq_bind, hsame.1]
          cases bump prof start t.timestamp with
          | none => rfl
          | some timestamp =>
              have hrest := @ih timestamp transfers hsame.2
              simp only [Option.bind_some]
              cases hb : bumpTimestamps prof timestamp accounts with
              | none =>
                  rw [hb] at hrest
                  rw [Option.map_eq_none_iff.1 hrest.symm]
                  rfl
              | some bumped =>
                  rw [hb] at hrest
                  obtain ⟨deduped, hd, htimes⟩ := Option.map_eq_some_iff.1 hrest.symm
                  rw [hd]
                  exact congrArg (fun times => some (timestamp :: times)) htimes.symm

/-- The build with overflow checks goes on exactly when the last raised timestamp fits. -/
theorem dedupeTimestamps_isSome_iff :
    (∃ out, dedupeTimestamps .debug start transfers = some out) ↔
      raiseEnd start.toNat (transfers.map fun t => t.timestamp.toNat) < 2 ^ 64 := by
  constructor
  · rintro ⟨out, h⟩
    rw [← getLast?_raise, ← dedupeTimestamps_raise h, List.getLast?_map]
    cases out.getLast? with
    | none => exact start.isLt
    | some t => exact t.timestamp.isLt
  · intro hroom
    -- the loop over accounts with these timestamps has room
    let accounts : List Account := transfers.map fun t => .holding 0 0 0 0 t.timestamp
    have htimes : accounts.map Account.timestamp = transfers.map Transfer.timestamp := List.map_map
    have hvalues : (accounts.map fun a => a.timestamp.toNat) =
        transfers.map fun t => t.timestamp.toNat := List.map_map
    rw [← hvalues] at hroom
    obtain ⟨bumped, hbumped⟩ := bumpTimestamps_of_room .debug hroom
    have hsame := @bumpTimestamps_eq_dedupeTimestamps start transfers .debug accounts htimes
    rw [hbumped, Option.map_some, eq_comm, Option.map_eq_some_iff] at hsame
    obtain ⟨out, hout, -⟩ := hsame
    exact ⟨out, hout⟩

end Loops

/-- Where the loop does not overflow, it changes nothing but the timestamps and makes them the
least repair above the start, in every build; timestamps that need no repair stay; and the loop
over the accounts of a snapshot makes the same of the same timestamps. -/
theorem dedupeTimestamps_least (start : U64) (transfers : List Transfer) {out : List Transfer}
    (h : dedupeTimestamps .debug start transfers = some out) :
    (∀ prof, dedupeTimestamps prof start transfers = some out) ∧
    out.map Transfer.untimed = transfers.map Transfer.untimed ∧
    LeastRepair start.toNat (transfers.map fun t => t.timestamp.toNat)
      (out.map fun t => t.timestamp.toNat) ∧
    ((∀ t ∈ transfers, start < t.timestamp) →
      transfers.Pairwise (fun t u => t.timestamp < u.timestamp) → out = transfers) ∧
    ∀ prof (accounts : List Account),
      accounts.map Account.timestamp = transfers.map Transfer.timestamp →
        ∃ bumped, bumpTimestamps prof start accounts = some bumped ∧
          bumped.map Account.timestamp = out.map Transfer.timestamp := by
  have hraise := dedupeTimestamps_raise h
  have hleast : LeastRepair start.toNat (transfers.map fun t => t.timestamp.toNat)
      (out.map fun t => t.timestamp.toNat) := hraise ▸ leastRepair_raise _ _
  have huntimed := dedupeTimestamps_untimed h
  refine ⟨dedupeTimestamps_of_debug h, huntimed, hleast, ?_, ?_⟩
  · intro habove hincreasing
    refine eq_of_untimed_of_times huntimed ?_
    have htimes := hleast.eq_self (List.forall_mem_map.2 habove) (List.pairwise_map.2 hincreasing)
    apply List.map_injective_iff.2 fun _ _ => BitVec.eq_of_toNat_eq
    rwa [List.map_map, List.map_map]
  · intro prof accounts hsame
    have hbumped := @bumpTimestamps_eq_dedupeTimestamps start transfers prof accounts hsame
    rw [dedupeTimestamps_of_debug h prof, Option.map_some] at hbumped
    exact Option.map_eq_some_iff.1 hbumped

theorem dedupeTimestamps_least_cascade :
    dedupeTimestamps .debug 3 [.moving 11 7 8 50 1 0 5, .moving 12 7 9 20 1 0 5,
        .moving 13 7 9 10 1 0 6] =
      some [.moving 11 7 8 50 1 0 5, .moving 12 7 9 20 1 0 6, .moving 13 7 9 10 1 0 7] ∧
    LeastRepair 3 [5, 5, 6] [5, 6, 7] :=
  ⟨rfl, (dedupeTimestamps_least 3 [.moving 11 7 8 50 1 0 5, .moving 12 7 9 20 1 0 5,
    .moving 13 7 9 10 1 0 6] rfl).2.2.1⟩

end TbManager.BalancePlan
