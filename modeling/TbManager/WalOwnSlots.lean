import TbManager.WalSlots

/-!
# Where the records of the log come from

A record that the iterator yields was read at an offset in the file: that of the body of
the last slot it has loaded, and the place of the record in it. The number of bytes of
a body is taken from the header of its slot.
-/

namespace TbManager

namespace Outcome

universe u

variable {ε α σ : Type u}

/-- Some call of a run from a state yields the item and leaves the other state. -/
inductive Yielded (next : σ → Outcome ε (Option (Except ε α) × σ)) : σ → α → σ → Prop
  | here {st st' : σ} {a : α} (h : next st = .ok (some (.ok a), st')) : Yielded next st a st'
  | later {st st₁ st' : σ} {a : α} {x : Option (Except ε α)} (h : next st = .ok (x, st₁))
      (hrest : Yielded next st₁ a st') : Yielded next st a st'

end Outcome

namespace Reading

variable {ε α σ : Type} {next : σ → Outcome ε (Option (Except ε α) × σ)}
  {R : σ → Reading ε α → Prop}

theorem Simulates.not_yielded_nil (hsim : Simulates next R) {st st' : σ} {a : α}
    (h : Outcome.Yielded next st a st') : ¬ R st nil := by
  induction h with
  | here h =>
      intro hR
      have htakes := hsim _ _ hR
      rw [h] at htakes
      cases htakes
  | later h hrest ih =>
      intro hR
      have htakes := hsim _ _ hR
      rw [h] at htakes
      cases htakes with
      | finish h => exact ih h

/-- What every yielding step keeps holds of every yielded item. -/
theorem Simulates.yielded_induction (hsim : Simulates next R) {I : σ → Prop} {P : α → σ → Prop}
    (hstep : ∀ st a st' r r', I st → R st r → R st' r' → next st = .ok (some (.ok a), st') →
      I st' ∧ P a st')
    {st st' : σ} {r : Reading ε α} {a : α} (hI : I st) (hR : R st r)
    (h : Outcome.Yielded next st a st') : P a st' := by
  induction h generalizing r with
  | here h =>
      have htakes := hsim _ _ hR
      rw [h] at htakes
      cases htakes with
      | item hR' => exact (hstep _ _ _ _ _ hI hR hR' h).2
  | @later st st₁ st' a x h hrest ih =>
      have htakes := hsim _ _ hR
      rw [h] at htakes
      cases htakes with
      | item hR' => exact ih (hstep _ _ _ _ _ hI hR hR' h).1 hR'
      | finish hR' => exact absurd hR' (hsim.not_yielded_nil hrest)
      | fail hR' => exact absurd hR' (hsim.not_yielded_nil hrest)

theorem items_join_ne_nil {f : ℕ → Reading ε α} {first left : ℕ}
    (h : ∃ n, first ≤ n ∧ n < first + left ∧ (∀ m, first ≤ m → m < n → (f m).stop = .ok ()) ∧
      (f n).items ≠ []) : (join ((List.range' first left).map f)).items ≠ [] := by
  induction left generalizing first with
  | zero =>
      obtain ⟨n, hn, hlt, -⟩ := h
      omega
  | succ left ih =>
      obtain ⟨n, hn, hlt, hends, hitems⟩ := h
      rw [List.range'_succ, List.map_cons, join_cons]
      have hfirst : first = n ∨ first < n := by omega
      rcases hfirst with rfl | hlater
      · generalize f first = r at hitems ⊢
        obtain ⟨items, stop⟩ := r
        change (Reading.append _ _).items ≠ []
        cases stop with
        | ok u => exact fun hnil => hitems (List.append_eq_nil_iff.1 hnil).1
        | err e => exact hitems
        | panic => exact hitems
        | running => exact hitems
      · have hrest := @ih (first + 1) ⟨n, by omega, by omega,
          fun m hm hlt' => hends m (by omega) hlt', hitems⟩
        have hstop := hends first le_rfl hlater
        generalize f first = r at hstop ⊢
        obtain ⟨items, stop⟩ := r
        cases hstop
        exact fun hnil => hrest (List.append_eq_nil_iff.1 hnil).2

end Reading

namespace WalObjectIter

def messageIn (prof : Profile) (config : TBConfig) (file : DataFile) (operation : U8)
    (checkpointOp : U64) (slot : ℕ) : Outcome ReaderError (Option (List U8 × ℕ)) := do
  let headersStart ← .ofOption (config.walHeadersStart prof)
  let preparesStart ← .ofOption (config.walPreparesStart prof)
  readSlot prof config file operation checkpointOp headersStart preparesStart slot

variable {prof : Profile} {config : TBConfig} {file : DataFile} {operation : U8}
  {checkpointOp headersStart preparesStart : U64}

theorem messageIn_eq (hheaders : config.walHeadersStart prof = some headersStart)
    (hprepares : config.walPreparesStart prof = some preparesStart) (slot : ℕ) :
    messageIn prof config file operation checkpointOp slot =
      readSlot prof config file operation checkpointOp headersStart preparesStart slot := by
  rw [messageIn, hheaders, hprepares]
  rfl

/-- A scan loads the message of a slot and has skipped the slots before it. -/
theorem scanSlots_found (hheaders : config.walHeadersStart prof = some headersStart)
    (hprepares : config.walPreparesStart prof = some preparesStart) {left : ℕ}
    {it it' : WalObjectIter}
    (h : scanSlots prof config file operation headersStart preparesStart left it =
      .ok (true, it')) :
    ∃ slot body count,
      it' = { it with slot := slot + 1, body := body, recordCount := count, recordIdx := 0 } ∧
      it.slot ≤ slot ∧ slot < it.slot + left ∧
      messageIn prof config file operation it.checkpointOp slot = .ok (some (body, count)) ∧
      ∀ s, it.slot ≤ s → s < slot →
        messageIn prof config file operation it.checkpointOp s = .ok none := by
  induction left generalizing it with
  | zero => cases h
  | succ left ih =>
      obtain ⟨found, hfound, h⟩ := Outcome.bind_eq_ok_iff.1 h
      rw [← messageIn_eq hheaders hprepares] at hfound
      cases found with
      | none =>
          obtain ⟨slot, body, count, hit, hle, hlt, hslot, hskipped⟩ := ih h
          dsimp only at hle hlt
          refine ⟨slot, body, count, hit, by omega, by omega, hslot, fun s hs hlt' => ?_⟩
          have hs' : s = it.slot ∨ it.slot + 1 ≤ s := by omega
          rcases hs' with rfl | hs'
          · exact hfound
          · exact hskipped s hs' hlt'
      | some message =>
          obtain ⟨body, count⟩ := message
          cases h
          exact ⟨it.slot, body, count, rfl, le_rfl, by omega, hfound,
            fun s hs hlt => absurd hlt (not_lt.2 hs)⟩

theorem length_of_messageIn {slot : ℕ} {body : List U8} {count : ℕ}
    (h : messageIn prof config file operation checkpointOp slot = .ok (some (body, count))) :
    count * recordSize ≤ body.length := by
  obtain ⟨headersStart, -, h⟩ := Outcome.bind_eq_ok_iff.1 h
  obtain ⟨preparesStart, -, h⟩ := Outcome.bind_eq_ok_iff.1 h
  exact length_of_readSlot h

theorem loadNextMatchingSlot_found {it it' : WalObjectIter}
    (h : loadNextMatchingSlot prof config file operation it = .ok (true, it')) :
    ∃ slot body count,
      it' = { it with slot := slot + 1, body := body, recordCount := count, recordIdx := 0 } ∧
      it.slot ≤ slot ∧
      messageIn prof config file operation it.checkpointOp slot = .ok (some (body, count)) ∧
      ∀ s, it.slot ≤ s → s < slot →
        messageIn prof config file operation it.checkpointOp s = .ok none := by
  obtain ⟨headersStart, hheaders, h⟩ := Outcome.bind_eq_ok_iff.1 h
  obtain ⟨preparesStart, hprepares, h⟩ := Outcome.bind_eq_ok_iff.1 h
  obtain ⟨slot, body, count, hit, hle, -, hslot, hskipped⟩ :=
    scanSlots_found (Outcome.ofOption_eq_ok hheaders) (Outcome.ofOption_eq_ok hprepares) h
  exact ⟨slot, body, count, hit, hle, hslot, hskipped⟩

/-! ## One call -/

section Step

variable {α : Type} [TBObject α]

/-- The record is the one before the cursor in the current body. -/
structure AtCursor (it : WalObjectIter) (record : α) : Prop where
  pos : 0 < it.recordIdx
  inBody : it.recordIdx * recordSize ≤ it.body.length
  decoded : record =
    TBObject.fromBytes ((it.body.drop ((it.recordIdx - 1) * recordSize)).take recordSize)
  notPadding : TBObject.isPadding record = false

theorem nextRecord_atCursor {left : ℕ} {it it' : WalObjectIter} {record : α}
    (h : nextRecord left it = .ok (some record, it')) :
    AtCursor it' record ∧ it' = { it with recordIdx := it'.recordIdx } := by
  induction left generalizing it with
  | zero => cases h
  | succ left ih =>
      obtain ⟨bytes, hbytes, h⟩ := Outcome.bind_eq_ok_iff.1 h
      have hslice := Outcome.ofOption_eq_ok hbytes
      unfold slice at hslice
      split_ifs at hslice with hend
      dsimp only at h
      split_ifs at h with hpad
      · have hrest := ih h
        exact hrest
      · cases h
        refine ⟨⟨Nat.succ_pos _, ?_, ?_, Bool.not_eq_true _ ▸ hpad⟩, rfl⟩
        · dsimp only
          rw [Nat.add_one_mul]
          exact hend
        · rw [← Option.some.inj hslice]
          rfl

variable [WalObject α]

def foundRecords (α : Type) [TBObject α] : Option (List U8 × ℕ) → List α
  | none => []
  | some (body, count) => bodyRecords body 0 count

/-- A call stays in the current body or goes on to the first message that has records. -/
structure Advances (prof : Profile) (config : TBConfig) (file : DataFile) (it it' : WalObjectIter)
    (record : α) : Prop where
  checkpoint : it'.checkpointOp = it.checkpointOp
  live : it'.done = it.done
  cursor : AtCursor it' record
  slot : (it'.slot = it.slot ∧ it'.body = it.body ∧ it'.recordCount = it.recordCount ∧
      it.recordIdx < it.recordCount) ∨
    (it.slot < it'.slot ∧ (current it : List α) = [] ∧
      messageIn prof config file (WalObject.walOperation α) it.checkpointOp (it'.slot - 1) =
        .ok (some (it'.body, it'.recordCount)) ∧
      ∀ s, it.slot ≤ s → s + 1 < it'.slot → ∃ found,
        messageIn prof config file (WalObject.walOperation α) it.checkpointOp s = .ok found ∧
          foundRecords α found = [])

theorem Advances.of_loaded {it it' : WalObjectIter} {record : α} {slot count : ℕ}
    {body : List U8}
    (h : Advances prof config file
      { it with slot := slot + 1, body := body, recordCount := count, recordIdx := 0 } it' record)
    (hnil : (current it : List α) = []) (hle : it.slot ≤ slot)
    (hslot : messageIn prof config file (WalObject.walOperation α) it.checkpointOp slot =
      .ok (some (body, count)))
    (hskipped : ∀ s, it.slot ≤ s → s < slot →
      messageIn prof config file (WalObject.walOperation α) it.checkpointOp s = .ok none) :
    Advances prof config file it it' record := by
  refine ⟨h.checkpoint, h.live, h.cursor, .inr ?_⟩
  rcases h.slot with ⟨hslot', hbody, hcount, -⟩ | ⟨hlt, hempty, hmessage, hrest⟩
  · dsimp only at hslot' hbody hcount
    rw [hslot', hbody, hcount, Nat.add_sub_cancel]
    refine ⟨by omega, hnil, hslot, fun s hs hlt => ⟨none, hskipped s hs (by omega), rfl⟩⟩
  · dsimp only at hlt hrest
    refine ⟨by omega, hnil, hmessage, fun s hs hlt' => ?_⟩
    have hs' : s < slot ∨ s = slot ∨ slot + 1 ≤ s := by omega
    rcases hs' with hs' | rfl | hs'
    · exact ⟨none, hskipped s hs hs', rfl⟩
    · exact ⟨some (body, count), hslot, hempty⟩
    · exact hrest s hs' hlt'

theorem nextOfSlots_advances {rounds : ℕ} {it it' : WalObjectIter} {record : α}
    (hbody : it.InBody)
    (h : nextOfSlots prof config file rounds it = .ok (some (.ok record), it')) :
    Advances prof config file it it' record := by
  induction rounds generalizing it with
  | zero => cases h
  | succ rounds ih =>
      obtain ⟨hidx, hfits⟩ := hbody
      have hsum : it.recordIdx + (it.recordCount - it.recordIdx) = it.recordCount :=
        Nat.add_sub_cancel' hidx
      rw [nextOfSlots] at h
      rcases nextRecord_cases (α := α) _ it (hsum.symm ▸ hfits) with
        ⟨hnil, hnext⟩ | ⟨record', idx, left, hnext, hleft, hcons⟩
      · rw [hnext, hsum, Outcome.ok_bind] at h
        obtain ⟨loaded, hloaded, h⟩ := Outcome.bind_eq_ok_iff.1 h
        rcases Outcome.attempt_eq_ok_iff.1 hloaded with
          ⟨⟨found, it₁⟩, hload, rfl⟩ | ⟨e, -, rfl⟩
        · cases found with
          | false => cases h
          | true =>
              obtain ⟨slot, body, count, hit, hle, hslot, hskipped⟩ :=
                loadNextMatchingSlot_found hload
              subst it₁
              have hrest := ih ⟨Nat.zero_le _, length_of_messageIn hslot⟩ h
              exact Advances.of_loaded hrest hnil hle hslot hskipped
        · cases h
      · have hcursor := nextRecord_atCursor hnext
        rw [hnext, Outcome.ok_bind] at h
        cases h
        refine ⟨rfl, rfl, hcursor.1, .inl ⟨rfl, rfl, rfl, ?_⟩⟩
        by_contra hle
        have hzero : it.recordCount - it.recordIdx = 0 := by omega
        rw [hzero] at hnext
        cases hnext

theorem next_advances {it it' : WalObjectIter} {record : α} (hbody : it.InBody)
    (h : next prof config file it = .ok (some (.ok record), it')) :
    Advances prof config file it it' record := by
  rw [next] at h
  split_ifs at h with hdone
  · cases h
  · exact nextOfSlots_advances hbody h

end Step

/-! ## Whole runs -/

section Runs

variable {α : Type} [TBObject α] [WalObject α]

/-- The slots before the cursor are read, and the last of them gave what is left of the body. -/
structure Traced (prof : Profile) (config : TBConfig) (file : DataFile) (operation : U8)
    (checkpointOp : U64) (it : WalObjectIter) : Prop where
  checkpoint : it.checkpointOp = checkpointOp
  read : ∀ s < it.slot, ∃ found,
    messageIn prof config file operation checkpointOp s = .ok found
  loaded : it.recordIdx < it.recordCount → 0 < it.slot ∧
    messageIn prof config file operation checkpointOp (it.slot - 1) =
      .ok (some (it.body, it.recordCount))

/-- A yielded record is in the message of the last slot, all slots up to which are read. -/
structure Origin (prof : Profile) (config : TBConfig) (file : DataFile) (checkpointOp : U64)
    (record : α) (it : WalObjectIter) : Prop where
  pos : 0 < it.slot
  le : it.slot ≤ config.journalSlotCount.toNat
  read : ∀ s < it.slot, ∃ found,
    messageIn prof config file (WalObject.walOperation α) checkpointOp s = .ok found
  message : messageIn prof config file (WalObject.walOperation α) checkpointOp (it.slot - 1) =
    .ok (some (it.body, it.recordCount))
  cursor : AtCursor it record

theorem traced_new : Traced prof config file operation checkpointOp (new checkpointOp) :=
  ⟨rfl, fun _ hs => absurd hs (Nat.not_lt_zero _), fun hlt => absurd hlt (Nat.lt_irrefl 0)⟩

theorem Traced.advances {it it' : WalObjectIter} {record : α}
    (h : Traced prof config file (WalObject.walOperation α) checkpointOp it)
    (hadv : Advances prof config file it it' record)
    (hle : it'.slot ≤ config.journalSlotCount.toNat) :
    Traced prof config file (WalObject.walOperation α) checkpointOp it' ∧
      Origin prof config file checkpointOp record it' := by
  have hmessage : 0 < it'.slot ∧
      messageIn prof config file (WalObject.walOperation α) checkpointOp (it'.slot - 1) =
        .ok (some (it'.body, it'.recordCount)) := by
    rcases hadv.slot with ⟨hslot, hbody, hcount, hidx⟩ | ⟨hlt, -, hmessage, -⟩
    · rw [hslot, hbody, hcount]
      exact h.loaded hidx
    · rw [h.checkpoint] at hmessage
      exact ⟨by omega, hmessage⟩
  have hread : ∀ s < it'.slot, ∃ found,
      messageIn prof config file (WalObject.walOperation α) checkpointOp s = .ok found := by
    intro s hs
    rcases hadv.slot with ⟨hslot, -⟩ | ⟨-, -, -, hskipped⟩
    · exact h.read s (hslot ▸ hs)
    · have hs' : s < it.slot ∨ (it.slot ≤ s ∧ s + 1 < it'.slot) ∨ s = it'.slot - 1 := by omega
      rcases hs' with hs' | ⟨hge, hlt⟩ | rfl
      · exact h.read s hs'
      · obtain ⟨found, hfound, -⟩ := hskipped s hge hlt
        exact ⟨found, h.checkpoint ▸ hfound⟩
      · exact ⟨_, hmessage.2⟩
  exact ⟨⟨hadv.checkpoint.trans h.checkpoint, hread, fun _ => hmessage⟩,
    ⟨hmessage.1, hle, hread, hmessage.2, hadv.cursor⟩⟩

/-- Every record that a new iterator yields has an origin. -/
theorem yielded_origin {record : α} {it : WalObjectIter}
    (h : Outcome.Yielded (next prof config file) (new checkpointOp) record it) :
    Origin prof config file checkpointOp record it := by
  obtain ⟨hnew, hrest⟩ := @rest_new α _ _ config file checkpointOp prof
  refine (next_simulates prof config file).yielded_induction
    (I := Traced prof config file (WalObject.walOperation α) checkpointOp)
    (P := Origin prof config file checkpointOp) ?_ traced_new ⟨hnew, hrest⟩ h
  rintro st a st' r r' hI ⟨⟨hbody, -⟩, -⟩ ⟨⟨-, hle⟩, -⟩ hnext
  exact hI.advances (next_advances hbody hnext) hle

theorem slotReading_of_messageIn (hheaders : config.walHeadersStart prof = some headersStart)
    (hprepares : config.walPreparesStart prof = some preparesStart) {slot : ℕ}
    {found : Option (List U8 × ℕ)}
    (h : messageIn prof config file (WalObject.walOperation α) checkpointOp slot = .ok found) :
    slotReading prof config file checkpointOp headersStart preparesStart slot =
      (.ofItems (foundRecords α found) : Reading ReaderError α) := by
  rw [messageIn_eq hheaders hprepares] at h
  rw [slotReading, h]
  cases found <;> rfl

section Reached

variable {slot count : ℕ} {body : List U8}
  (hslot : slot < config.journalSlotCount.toNat)
  (hread : ∀ s < slot, ∃ found,
    messageIn prof config file (WalObject.walOperation α) checkpointOp s = .ok found)
  (hmessage : messageIn prof config file (WalObject.walOperation α) checkpointOp slot =
    .ok (some (body, count)))
  (hrecords : (bodyRecords body 0 count : List α) ≠ [])

include hslot hread hmessage hrecords

theorem items_rest_ne_nil {it : WalObjectIter} (hdone : it.done = false)
    (hcheckpoint : it.checkpointOp = checkpointOp) (hle : it.slot ≤ slot) :
    (rest prof config file it : Reading ReaderError α).items ≠ [] := by
  obtain ⟨headersStart, hheaders, h⟩ := Outcome.bind_eq_ok_iff.1 hmessage
  obtain ⟨preparesStart, hprepares, -⟩ := Outcome.bind_eq_ok_iff.1 h
  have hheaders := Outcome.ofOption_eq_ok hheaders
  have hprepares := Outcome.ofOption_eq_ok hprepares
  have hlog : (logReading prof config file checkpointOp it.slot : Reading ReaderError α).items ≠
      [] := by
    rw [logReading, hheaders, hprepares]
    apply Reading.items_join_ne_nil
    refine ⟨slot, hle, by omega, fun s _ hs => ?_, ?_⟩
    · obtain ⟨found, hfound⟩ := hread s hs
      rw [slotReading_of_messageIn hheaders hprepares hfound]
      rfl
    · rw [slotReading_of_messageIn hheaders hprepares hmessage]
      exact hrecords
  rw [rest, hdone, if_neg Bool.false_ne_true, hcheckpoint]
  exact fun hnil => hlog (List.append_eq_nil_iff.1 hnil).2

theorem exists_yielded {it : WalObjectIter} (hbody : it.InBody) (hdone : it.done = false)
    (hcheckpoint : it.checkpointOp = checkpointOp) (hle : it.slot ≤ slot) :
    ∃ (record : α) (it' : WalObjectIter), Outcome.Yielded (next prof config file) it record it' ∧
      it'.slot = slot + 1 := by
  have hne := items_rest_ne_nil hslot hread hmessage hrecords hdone hcheckpoint hle
  have htakes := next_simulates (α := α) prof config file it _
    ⟨⟨hbody, hle.trans hslot.le⟩, rfl⟩
  generalize hrest : (rest prof config file it : Reading ReaderError α) = r at hne htakes
  obtain ⟨items, stop⟩ := r
  induction items generalizing it with
  | nil => exact absurd rfl hne
  | cons a as ih =>
      generalize hnext : next (α := α) prof config file it = out at htakes
      cases htakes with
      | @item _ _ _ it' hR =>
          obtain ⟨⟨hbody', hle'⟩, hrest'⟩ := hR
          have hadv := next_advances hbody hnext
          have hdone' := hadv.live.trans hdone
          have hcheckpoint' := hadv.checkpoint.trans hcheckpoint
          have hcases : it'.slot ≤ slot ∨ it'.slot = slot + 1 ∨ slot + 1 < it'.slot := by omega
          rcases hcases with hbefore | hat | hafter
          · have hne' := items_rest_ne_nil hslot hread hmessage hrecords hdone' hcheckpoint' hbefore
            have htakes' := next_simulates (α := α) prof config file it' _
              ⟨⟨hbody', hle'⟩, hrest'⟩
            rw [hrest'] at hne'
            obtain ⟨record, it'', hyielded, hslot''⟩ :=
              ih hbody' hdone' hcheckpoint' hbefore hrest' hne' htakes'
            exact ⟨record, it'', .later hnext hyielded, hslot''⟩
          · exact ⟨a, it', .here hnext, hat⟩
          · -- a call does not go past a message with records
            rcases hadv.slot with ⟨hslot', -⟩ | ⟨-, -, -, hskipped⟩
            · omega
            · obtain ⟨found, hfound, hnil⟩ := hskipped slot hle hafter
              rw [hcheckpoint, hmessage] at hfound
              cases hfound
              exact absurd hnil hrecords

end Reached

end Runs

end WalObjectIter

/-! ## The slot of a record -/

def TBConfig.walBodyOffset (config : TBConfig) (prof : Profile) (slot : ℕ) : Option U64 := do
  let preparesStart ← config.walPreparesStart prof
  let skipped ← prof.mul (BitVec.ofNat 64 slot) config.messageSizeMax
  let slotStart ← prof.add preparesStart skipped
  prof.add slotStart 256

namespace WalObjectIter

/-- The record before the cursor was decoded from bytes of the last loaded slot, after the header
of its message and before the next slot. -/
def FromOwnSlot {α : Type} [TBObject α] (prof : Profile) (config : TBConfig) (file : DataFile)
    (record : α) (it : WalObjectIter) : Prop :=
  ∃ slot bodyOffset recordAt, it.slot = slot + 1 ∧
    config.walBodyOffset prof slot = some bodyOffset ∧
    recordAt = bodyOffset.toNat + (it.recordIdx - 1) * recordSize ∧
    record = TBObject.fromBytes ((file.bytes.drop recordAt).take recordSize) ∧
    config.walPreparesAt + slot * config.messageSizeMax.toNat + 256 ≤ recordAt ∧
    recordAt + recordSize ≤ config.walPreparesAt + (slot + 1) * config.messageSizeMax.toNat

/-- Every record comes from its own slot, and no message is read whose size, 256 bytes and the body,
exceeds that of a slot. -/
structure OwnSlots (α : Type) [TBObject α] [WalObject α] (prof : Profile) (config : TBConfig)
    (file : DataFile) (checkpointOp : U64) : Prop where
  records : ∀ (record : α) it, Outcome.Yielded (next prof config file) (new checkpointOp) record it →
    FromOwnSlot prof config file record it
  sizes : ∀ slot < config.journalSlotCount.toNat,
    (∀ s < slot, ∃ found,
      messageIn prof config file (WalObject.walOperation α) checkpointOp s = .ok found) →
    ∀ body count, messageIn prof config file (WalObject.walOperation α) checkpointOp slot =
      .ok (some (body, count)) → 256 + body.length ≤ config.messageSizeMax.toNat

/-- Up to the first slot that cannot be read, no body that is read is longer than its slot, and
the offset of a body with records fits in 64 bits. -/
def BodiesInSlots (α : Type) [TBObject α] [WalObject α] (config : TBConfig) (file : DataFile)
    (checkpointOp : U64) : Prop :=
  ∀ slot < config.journalSlotCount.toNat,
    (∀ s < slot,
      (slotBody wrapped config file (WalObject.walOperation α) checkpointOp s).isSome) →
    ∀ body, slotBody wrapped config file (WalObject.walOperation α) checkpointOp slot =
        some (some body) →
      256 + body.length ≤ config.messageSizeMax.toNat ∧
        (config.walBodyAt slot < 2 ^ 64 ∨
          (bodyRecords body 0 (body.length / recordSize) : List α) = [])

section OwnSlots

variable {α : Type} [TBObject α] [WalObject α] {prof : Profile} {config : TBConfig}
  {file : DataFile} {operation : U8} {checkpointOp headersStart preparesStart : U64} {slot : ℕ}

theorem body_of_messageIn {body : List U8} {count : ℕ}
    (h : messageIn prof config file operation checkpointOp slot = .ok (some (body, count))) :
    ∃ bodyOffset, config.walBodyOffset prof slot = some bodyOffset ∧
      file.readExact bodyOffset body.length = .ok body ∧ count = body.length / recordSize := by
  obtain ⟨headersStart, -, h⟩ := Outcome.bind_eq_ok_iff.1 h
  obtain ⟨preparesStart, hprepares, h⟩ := Outcome.bind_eq_ok_iff.1 h
  obtain ⟨skipped, slotStart, bodyOffset, hskipped, hslotStart, hbodyOffset, hread, hcount⟩ :=
    loaded_of_readSlot h
  refine ⟨bodyOffset, ?_, hread, hcount⟩
  rw [TBConfig.walBodyOffset, Outcome.ofOption_eq_ok hprepares]
  change (prof.mul (BitVec.ofNat 64 slot) config.messageSizeMax >>= fun skipped =>
    prof.add preparesStart skipped >>= fun slotStart => prof.add slotStart 256) = _
  rw [hskipped]
  change (prof.add preparesStart skipped >>= fun slotStart => prof.add slotStart 256) = _
  rw [hslotStart]
  exact hbodyOffset

/-- Every build that reads a slot reads it as in exact arithmetic with wrapped offsets. -/
theorem slotBody_of_messageIn (hslot : slot < config.journalSlotCount.toNat)
    {found : Option (List U8 × ℕ)}
    (h : messageIn prof config file operation checkpointOp slot = .ok found) :
    slotBody wrapped config file operation checkpointOp slot = some (found.map Prod.fst) := by
  obtain ⟨headersStart, hheaders, h⟩ := Outcome.bind_eq_ok_iff.1 h
  obtain ⟨preparesStart, hprepares, h⟩ := Outcome.bind_eq_ok_iff.1 h
  rcases @readSlot_cases prof config file operation checkpointOp headersStart preparesStart slot
      hslot (Outcome.ofOption_eq_ok hheaders) (Outcome.ofOption_eq_ok hprepares) with
    ⟨-, -, hpanic⟩ | ⟨-, hreads⟩
  · rw [hpanic] at h
    cases h
  · rw [h] at hreads
    generalize slotBody wrapped config file operation checkpointOp slot = m at hreads ⊢
    cases hreads <;> rfl

/-- The build without overflow checks reads every slot that can be read with wrapped offsets. -/
theorem messageIn_release (hslot : slot < config.journalSlotCount.toNat)
    {found : Option (List U8)}
    (h : slotBody wrapped config file operation checkpointOp slot = some found) :
    messageIn .release config file operation checkpointOp slot =
      .ok (found.map fun body => (body, body.length / recordSize)) := by
  have hcases := @readSlot_cases .release config file operation checkpointOp
    (config.superblockCopies * config.superblockCopySize)
    (config.superblockCopies * config.superblockCopySize + config.journalSlotCount * 256) slot
    hslot rfl rfl
  rw [← messageIn_eq rfl rfl, h] at hcases
  generalize messageIn .release config file operation checkpointOp slot = x at hcases ⊢
  rcases hcases with ⟨hdebug, -⟩ | ⟨-, hreads⟩
  · cases hdebug
  · cases hreads <;> rfl

theorem toNat_walBodyOffset (hslot : slot < config.journalSlotCount.toNat) {bodyOffset : U64}
    (h : config.walBodyOffset prof slot = some bodyOffset) :
    bodyOffset.toNat = wrapped (config.walBodyAt slot) := by
  obtain ⟨preparesStart, hprepares, h⟩ := Option.bind_eq_some_iff.1 h
  exact Profile.toNat_of_fit ((TBConfig.walBodyOffset_eq hslot hprepares).symm.trans h)

theorem Origin.position {record : α} {it : WalObjectIter}
    (h : Origin prof config file checkpointOp record it) :
    ∃ slot bodyOffset, it.slot = slot + 1 ∧ slot < config.journalSlotCount.toNat ∧
      config.walBodyOffset prof slot = some bodyOffset ∧
      bodyOffset.toNat = wrapped (config.walBodyAt slot) ∧
      record = TBObject.fromBytes ((file.bytes.drop
        (bodyOffset.toNat + (it.recordIdx - 1) * recordSize)).take recordSize) ∧
      bodyOffset.toNat + it.body.length ≤ file.bytes.length ∧
      (it.recordIdx - 1) * recordSize + recordSize ≤ it.body.length := by
  obtain ⟨hpos, hle, -, hmessage, hcursor⟩ := h
  obtain ⟨bodyOffset, hoffset, hread, -⟩ := body_of_messageIn hmessage
  have hend : (it.recordIdx - 1) * recordSize + recordSize ≤ it.body.length := by
    have hidx := hcursor.pos
    have hin := hcursor.inBody
    rwa [← Nat.sub_add_cancel hidx, Nat.add_one_mul] at hin
  have hne : ¬ it.body.length = 0 := by
    have : 0 < recordSize := by decide
    omega
  unfold DataFile.readExact at hread
  rw [if_neg hne] at hread
  split_ifs at hread with hstored
  have hbody := Except.ok.inj hread
  have hslot : it.slot - 1 < config.journalSlotCount.toNat := by omega
  refine ⟨it.slot - 1, bodyOffset, (Nat.sub_add_cancel hpos).symm, hslot, hoffset,
    toNat_walBodyOffset hslot hoffset, ?_, hstored, hend⟩
  rw [hcursor.decoded]
  apply congrArg TBObject.fromBytes
  conv_lhs => rw [← hbody]
  rw [List.drop_take, List.drop_drop, List.take_take, min_eq_left (by omega)]

theorem Origin.mem_bodyRecords {record : α} {it : WalObjectIter}
    (h : Origin prof config file checkpointOp record it) :
    record ∈ (bodyRecords it.body 0 (it.body.length / recordSize) : List α) := by
  have hidx := h.cursor.pos
  refine List.mem_filter.2 ⟨List.mem_map.2 ⟨it.recordIdx - 1, ?_, h.cursor.decoded.symm⟩, ?_⟩
  · have hle : it.recordIdx ≤ it.body.length / recordSize :=
      (Nat.le_div_iff_mul_le (by decide)).2 h.cursor.inBody
    rw [List.mem_range'_1]
    omega
  · rw [h.cursor.notPadding]
    rfl

theorem ownSlots_of_bodiesInSlots (prof : Profile) (h : BodiesInSlots α config file checkpointOp) :
    OwnSlots α prof config file checkpointOp := by
  have hreadable : ∀ slot < config.journalSlotCount.toNat,
      (∀ s < slot, ∃ found,
        messageIn prof config file (WalObject.walOperation α) checkpointOp s = .ok found) →
      ∀ s < slot,
        (slotBody wrapped config file (WalObject.walOperation α) checkpointOp s).isSome := by
    intro slot hslot hread s hs
    obtain ⟨found, hfound⟩ := hread s hs
    rw [slotBody_of_messageIn (hs.trans hslot) hfound]
    rfl
  constructor
  · intro record it hyielded
    have horigin := yielded_origin hyielded
    obtain ⟨slot, bodyOffset, hit, hslot, hoffset, htoNat, hrecord, -, hend⟩ := horigin.position
    have hmessage := horigin.message
    have hread := horigin.read
    rw [hit, Nat.add_sub_cancel] at hmessage
    rw [hit] at hread
    obtain ⟨hsize, hfits⟩ := h slot hslot
      (hreadable slot hslot fun s hs => hread s (by omega)) it.body
      (slotBody_of_messageIn hslot hmessage)
    have hbody : config.walBodyAt slot < 2 ^ 64 := by
      rcases hfits with hfits | hnil
      · exact hfits
      · have hmem := horigin.mem_bodyRecords
        rw [hnil] at hmem
        cases hmem
    have hexact : bodyOffset.toNat =
        config.walPreparesAt + slot * config.messageSizeMax.toNat + 256 :=
      htoNat.trans (Nat.mod_eq_of_lt hbody)
    refine ⟨slot, bodyOffset, _, hit, hoffset, rfl, hrecord, ?_, ?_⟩
    · rw [hexact]
      exact Nat.le_add_right _ _
    · rw [hexact, Nat.add_one_mul]
      omega
  · intro slot hslot hread body count hmessage
    exact (h slot hslot (hreadable slot hslot hread) body
      (slotBody_of_messageIn hslot hmessage)).1

/-- The build without overflow checks yields every record of a body whose offset has wrapped. -/
theorem bodiesInSlots_of_ownSlots (h : OwnSlots α .release config file checkpointOp) :
    BodiesInSlots α config file checkpointOp := by
  intro slot hslot hreadable body hbody
  have hmessage := messageIn_release hslot hbody
  have hread : ∀ s < slot, ∃ found, messageIn .release config file (WalObject.walOperation α)
      checkpointOp s = .ok found := by
    intro s hs
    obtain ⟨found, hfound⟩ := Option.isSome_iff_exists.1 (hreadable s hs)
    exact ⟨_, messageIn_release (hs.trans hslot) hfound⟩
  refine ⟨h.sizes slot hslot hread body _ hmessage, ?_⟩
  by_contra hnot
  obtain ⟨hover, hrecords⟩ := not_or.1 hnot
  have hnew : (new checkpointOp).InBody := ⟨Nat.le_refl 0, Nat.le_refl 0⟩
  obtain ⟨record, it, hyielded, hit⟩ :=
    exists_yielded (α := α) hslot hread hmessage hrecords hnew rfl rfl (Nat.zero_le slot)
  obtain ⟨slot', bodyOffset, recordAt, hit', hoffset, hat, -, hstart, -⟩ :=
    h.records record it hyielded
  obtain ⟨slot'', bodyOffset'', hit'', -, hoffset'', -, -, hstored, hend⟩ :=
    (yielded_origin hyielded).position
  have hsame : slot' = slot := by omega
  have hsame'' : slot'' = slot := by omega
  subst hsame hsame''
  rw [hoffset, Option.some.injEq] at hoffset''
  rw [← hoffset''] at hstored
  have hlength := file.length_lt
  change config.walBodyAt _ ≤ recordAt at hstart
  omega

/-- For every file and layout, every record of every build comes from bytes of its own slot, and no
message longer than a slot is read, exactly when up to the first slot that cannot be read every
matching header announces at most `message_size_max` bytes and no body with records is read at an
offset that has wrapped. -/
theorem ownSlots_iff (α : Type) [TBObject α] [WalObject α] (config : TBConfig) (file : DataFile)
    (checkpointOp : U64) :
    (∀ prof, OwnSlots α prof config file checkpointOp) ↔
      BodiesInSlots α config file checkpointOp :=
  ⟨fun h => bodiesInSlots_of_ownSlots (h .release), fun h prof => ownSlots_of_bodiesInSlots prof h⟩

end OwnSlots

def twoSlots : TBConfig where
  blockSize := 512
  superblockCopySize := 1536
  superblockCopies := 1
  gridZoneStart := 1536
  journalSlotCount := 2
  messageSizeMax := 512

/-- The header of slot 0 announces three records; only two of them are in the slot. -/
def longMessageFile : DataFile where
  bytes := Manifest.sparse 2700 [(40, 1), (1632, 128), (1633, 2), (1760, 1), (1788, 138),
    (2304, 1), (2432, 2), (2560, 3)]
  length_lt := by
    rw [Manifest.length_sparse]
    omega

def inLongMessage (yielded : ℕ) : WalObjectIter where
  checkpointOp := 0
  slot := 1
  body := Manifest.sparse 384 [(0, 1), (128, 2), (256, 3)]
  recordCount := 3
  recordIdx := yielded
  done := false

/-- The third record of slot 0 is decoded from the bytes of slot 1. -/
theorem longMessage_not_ownSlots :
    iterWalAccounts .debug twoSlots longMessageFile = .ok (new 0) ∧
    Outcome.nextCalls (next (α := Account) .debug twoSlots longMessageFile) 3 (new 0) =
      .ok [some (.ok (.holding 1 0 0 0 0)), some (.ok (.holding 2 0 0 0 0)),
        some (.ok (.holding 3 0 0 0 0))] ∧
    ¬ OwnSlots Account .debug twoSlots longMessageFile 0 := by
  refine ⟨by decide +kernel, by decide +kernel, fun h => ?_⟩
  have hfirst : next .debug twoSlots longMessageFile (new 0) =
      .ok (some (.ok (Account.holding 1 0 0 0 0)), inLongMessage 1) := by
    decide +kernel
  have hsecond : next .debug twoSlots longMessageFile (inLongMessage 1) =
      .ok (some (.ok (Account.holding 2 0 0 0 0)), inLongMessage 2) := by
    decide +kernel
  have hthird : next .debug twoSlots longMessageFile (inLongMessage 2) =
      .ok (some (.ok (Account.holding 3 0 0 0 0)), inLongMessage 3) := by
    decide +kernel
  obtain ⟨slot, bodyOffset, recordAt, hslot, hoffset, hat, -, -, hend⟩ :=
    h.records _ _ (.later hfirst (.later hsecond (.here hthird)))
  have hzero : slot = 0 := (Nat.succ.inj hslot).symm
  have hbody : twoSlots.walBodyOffset .debug 0 = some 2304 := by decide
  have hprepares : twoSlots.walPreparesAt = 2048 := by decide
  rw [hzero, hbody, Option.some.injEq] at hoffset
  rw [hat, ← hoffset, hzero, hprepares] at hend
  revert hend
  decide

end WalObjectIter

end TbManager
