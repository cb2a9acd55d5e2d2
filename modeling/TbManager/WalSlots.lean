import TbManager.ManifestLog
import TbManager.WalIter

/-!
# The log slot by slot

Read at once, the log is a list of slots: a header, a reason to skip it or the body of
its message, and the records in the body. The offsets are those of exact arithmetic;
the iterator computes them with 64-bit numbers.
-/

namespace TbManager

/-! ## Offsets of a slot -/

namespace TBConfig

variable (config : TBConfig) (slot : ℕ)

def walHeaderAt : ℕ :=
  config.superblockCopies.toNat * config.superblockCopySize.toNat + slot * 256

/-- Where the messages start, after the headers of all slots. -/
def walPreparesAt : ℕ :=
  config.superblockCopies.toNat * config.superblockCopySize.toNat +
    config.journalSlotCount.toNat * 256

def walBodyAt : ℕ := config.walPreparesAt + slot * config.messageSizeMax.toNat + 256

variable {config slot} {prof : Profile}

theorem walHeadersStart_eq : config.walHeadersStart prof =
    prof.fit (config.superblockCopies.toNat * config.superblockCopySize.toNat) :=
  prof.mul_eq_fit _ _

theorem walPreparesStart_eq : config.walPreparesStart prof = prof.fit config.walPreparesAt := by
  rw [walPreparesStart, walHeadersStart_eq, prof.mul_eq_fit config.journalSlotCount 256]
  exact prof.fit_add _ _

theorem toNat_slot (hslot : slot < config.journalSlotCount.toNat) :
    (BitVec.ofNat 64 slot).toNat = slot :=
  Nat.mod_eq_of_lt (hslot.trans config.journalSlotCount.isLt)

variable {headersStart preparesStart : U64}

theorem walHeaderOffset_eq (hslot : slot < config.journalSlotCount.toNat)
    (hheaders : config.walHeadersStart prof = some headersStart) :
    (prof.mul (BitVec.ofNat 64 slot) 256 >>= fun skipped => prof.add headersStart skipped) =
      prof.fit (config.walHeaderAt slot) := by
  rw [walHeadersStart_eq] at hheaders
  rw [prof.mul_eq_fit, toNat_slot hslot]
  exact Profile.fit_add_of hheaders _

theorem walHeaderAt_le (hslot : slot < config.journalSlotCount.toNat) :
    config.walHeaderAt slot ≤ config.walPreparesAt := by
  unfold walHeaderAt walPreparesAt
  omega

theorem exists_walHeaderOffset (hslot : slot < config.journalSlotCount.toNat)
    (hprepares : config.walPreparesStart prof = some preparesStart) :
    ∃ offset : U64, prof.fit (config.walHeaderAt slot) = some offset := by
  rw [← Option.ne_none_iff_exists']
  intro hnone
  obtain ⟨hdebug, hover⟩ := Profile.fit_eq_none_iff.1 hnone
  have hle := hover.trans (walHeaderAt_le hslot)
  rw [walPreparesStart_eq, Profile.fit_eq_none_iff.2 ⟨hdebug, hle⟩] at hprepares
  cases hprepares

theorem walBodyOffset_eq (hslot : slot < config.journalSlotCount.toNat)
    (hprepares : config.walPreparesStart prof = some preparesStart) :
    (prof.mul (BitVec.ofNat 64 slot) config.messageSizeMax >>= fun skipped =>
        prof.add preparesStart skipped >>= fun slotStart => prof.add slotStart 256) =
      prof.fit (config.walBodyAt slot) := by
  rw [walPreparesStart_eq] at hprepares
  have hstart := Profile.fit_add_of hprepares (slot * config.messageSizeMax.toNat)
  have hend := prof.fit_add (w := 64)
    (config.walPreparesAt + slot * config.messageSizeMax.toNat) 256
  rw [prof.fit_of_lt (by decide : 256 < 2 ^ 64), ← hstart] at hend
  rw [prof.mul_eq_fit, toNat_slot hslot, walBodyAt, ← hend]
  cases prof.fit (slot * config.messageSizeMax.toNat) <;> rfl

end TBConfig

/-! ## Slots of a file -/

namespace DataFile

def bytesAt (file : DataFile) (offset n : ℕ) : Option (List U8) :=
  if offset + n ≤ file.bytes.length then some ((file.bytes.drop offset).take n) else none

theorem length_of_bytesAt {file : DataFile} {offset n : ℕ} {bytes : List U8}
    (h : file.bytesAt offset n = some bytes) : bytes.length = n := by
  unfold bytesAt at h
  split_ifs at h with hend
  rw [← Option.some.inj h, List.length_take, List.length_drop]
  omega

theorem seek_readExact_cases (file : DataFile) (offset : U64) {n : ℕ} (hn : 0 < n) :
    (∃ bytes, file.bytesAt offset.toNat n = some bytes ∧ file.seek offset = .ok () ∧
        file.readExact offset n = .ok bytes) ∨
      file.bytesAt offset.toNat n = none ∧
        ((∃ e, file.seek offset = .error e) ∨
          file.seek offset = .ok () ∧ ∃ e, file.readExact offset n = .error e) := by
  have hlength := file.length_lt
  have hne : ¬ n = 0 := Nat.pos_iff_ne_zero.1 hn
  unfold bytesAt readExact seek
  by_cases hend : offset.toNat + n ≤ file.bytes.length
  · have hseek : offset.toNat < 2 ^ 63 := by omega
    left
    rw [if_pos hend, if_pos hseek, if_neg hne, if_pos hend]
    exact ⟨_, rfl, rfl, rfl⟩
  · right
    rw [if_neg hend, if_neg hne, if_neg hend]
    refine ⟨rfl, ?_⟩
    by_cases hseek : offset.toNat < 2 ^ 63
    · rw [if_pos hseek]
      exact .inr ⟨rfl, _, rfl⟩
    · rw [if_neg hseek]
      exact .inl ⟨_, rfl⟩

end DataFile

/-- The header of a message with the operation, newer than the checkpoint and long enough for a
record. -/
def HeaderMatches (operation : U8) (checkpointOp : U64) (hdr : List U8) : Prop :=
  hdr[252]? = some operation ∧ leAt 8 hdr 224 ≠ 0 ∧ checkpointOp < leAt 8 hdr 224 ∧
    256 + recordSize ≤ (leAt 4 hdr 96).toNat

instance (operation : U8) (checkpointOp : U64) (hdr : List U8) :
    Decidable (HeaderMatches operation checkpointOp hdr) :=
  inferInstanceAs (Decidable (_ ∧ _ ∧ _ ∧ _))

/-- The body of the message in a slot, none inside where the slot is skipped; no value where the
header or the body cannot be read. The offsets are taken as `wrap` gives them. -/
def slotBody (wrap : ℕ → ℕ) (config : TBConfig) (file : DataFile) (operation : U8)
    (checkpointOp : U64) (slot : ℕ) : Option (Option (List U8)) := do
  let hdr ← file.bytesAt (wrap (config.walHeaderAt slot)) 256
  if HeaderMatches operation checkpointOp hdr then
    (file.bytesAt (wrap (config.walBodyAt slot)) ((leAt 4 hdr 96).toNat - 256)).map some
  else some none

def wrapped (n : ℕ) : ℕ := n % 2 ^ 64

namespace WalObjectIter

inductive ReadsAs : Outcome ReaderError (Option (List U8 × ℕ)) → Option (Option (List U8)) → Prop
  | failed (e : ReaderError) : ReadsAs (.err e) none
  | skipped : ReadsAs (.ok none) (some none)
  | loaded (body : List U8) : ReadsAs (.ok (some (body, body.length / recordSize))) (some (some body))

def BodyOverflows (config : TBConfig) (file : DataFile) (operation : U8) (checkpointOp : U64)
    (slot : ℕ) : Prop :=
  (∃ hdr, file.bytesAt (config.walHeaderAt slot) 256 = some hdr ∧
    HeaderMatches operation checkpointOp hdr) ∧ 2 ^ 64 ≤ config.walBodyAt slot

section ReadSlot

variable {prof : Profile} {config : TBConfig} {file : DataFile} {operation : U8}
  {checkpointOp headersStart preparesStart : U64} {slot : ℕ}

theorem ofOption_bind₃ {ε α β γ δ : Type} (x : Option α) (f : α → Option β) (g : β → Option γ)
    (k : γ → Outcome ε δ) :
    (Outcome.ofOption x >>= fun a => Outcome.ofOption (f a) >>= fun b =>
        Outcome.ofOption (g b) >>= k) =
      Outcome.ofOption (x >>= fun a => f a >>= g) >>= k := by
  cases x with
  | none => rfl
  | some a =>
      change (Outcome.ofOption (f a) >>= fun b => Outcome.ofOption (g b) >>= k) =
        Outcome.ofOption (f a >>= g) >>= k
      cases f a <;> rfl

def readMessage (prof : Profile) (config : TBConfig) (file : DataFile) (operation : U8)
    (checkpointOp preparesStart : U64) (slot : ℕ) (hdr : List U8) :
    Outcome ReaderError (Option (List U8 × ℕ)) := do
  let found ← .ofOption (readU8 hdr 252)
  if found ≠ operation then .ok none
  else do
    let op ← .ofOption (readU64 hdr 224)
    if op = 0 ∨ op ≤ checkpointOp then .ok none
    else do
      let msgSize ← .ofOption (readU32 hdr 96)
      if msgSize.toNat ≤ 256 then .ok none
      else if (msgSize.toNat - 256) / recordSize = 0 then .ok none
      else do
        let skipped ← .ofOption (prof.mul (BitVec.ofNat 64 slot) config.messageSizeMax)
        let slotStart ← .ofOption (prof.add preparesStart skipped)
        let bodyOffset ← .ofOption (prof.add slotStart 256)
        .ofExcept ((file.seek bodyOffset).mapError fun e =>
          .io ("WAL body seek slot " ++ toString slot ++ ": " ++ e))
        let body ← .ofExcept ((file.readExact bodyOffset (msgSize.toNat - 256)).mapError fun e =>
          .io ("WAL body read slot " ++ toString slot ++ ": " ++ e))
        .ok (some (body, (msgSize.toNat - 256) / recordSize))

/-- The body of a message, from its offset on. -/
theorem readBody_reads (offset : U64) {n : ℕ} (hn : 0 < n) :
    ReadsAs
      (Outcome.ofExcept ((file.seek offset).mapError fun e =>
          .io ("WAL body seek slot " ++ toString slot ++ ": " ++ e)) >>= fun _ =>
        Outcome.ofExcept ((file.readExact offset n).mapError fun e =>
          .io ("WAL body read slot " ++ toString slot ++ ": " ++ e)) >>= fun body =>
        .ok (some (body, n / recordSize)))
      ((file.bytesAt offset.toNat n).map some) := by
  rcases file.seek_readExact_cases offset hn with
    ⟨body, hbody, hseek, hread⟩ | ⟨hnone, ⟨e, hseek⟩ | ⟨hseek, e, hread⟩⟩
  · rw [hbody, hseek, hread, ← DataFile.length_of_bytesAt hbody]
    exact .loaded body
  · rw [hnone, hseek]
    exact .failed _
  · rw [hnone, hseek, hread]
    exact .failed _

theorem headerMatches_iff {hdr : List U8} (hlength : hdr.length = 256) :
    HeaderMatches operation checkpointOp hdr ↔
      hdr[252] = operation ∧ ¬ (leAt 8 hdr 224 = 0 ∨ leAt 8 hdr 224 ≤ checkpointOp) ∧
        ¬ (leAt 4 hdr 96).toNat ≤ 256 ∧ ¬ ((leAt 4 hdr 96).toNat - 256) / recordSize = 0 := by
  have hfound : hdr[252]? = some hdr[252] := List.getElem?_eq_getElem (by omega)
  rw [HeaderMatches, hfound, Option.some.injEq, not_or, BitVec.not_le, Nat.div_eq_zero_iff,
    recordSize]
  constructor
  · rintro ⟨hop, hne, hlt, hsize⟩
    exact ⟨hop, ⟨hne, hlt⟩, by omega, by omega⟩
  · rintro ⟨hop, ⟨hne, hlt⟩, hsmall, hrecords⟩
    exact ⟨hop, hne, hlt, by omega⟩

theorem readMessage_cases {hdr : List U8} (hslot : slot < config.journalSlotCount.toNat)
    (hprepares : config.walPreparesStart prof = some preparesStart) (hlength : hdr.length = 256) :
    (prof = .debug ∧ HeaderMatches operation checkpointOp hdr ∧
        2 ^ 64 ≤ config.walBodyAt slot ∧
        readMessage prof config file operation checkpointOp preparesStart slot hdr = .panic) ∨
      ¬ (prof = .debug ∧ HeaderMatches operation checkpointOp hdr ∧
        2 ^ 64 ≤ config.walBodyAt slot) ∧
      ReadsAs (readMessage prof config file operation checkpointOp preparesStart slot hdr)
        (if HeaderMatches operation checkpointOp hdr then
          (file.bytesAt (wrapped (config.walBodyAt slot)) ((leAt 4 hdr 96).toNat - 256)).map some
        else some none) := by
  have hmatches := @headerMatches_iff operation checkpointOp hdr hlength
  rw [readMessage, readU8_of_lt (by omega), readU64_of_le (by omega), readU32_of_le (by omega)]
  simp only [Outcome.ofOption_some, Outcome.ok_bind]
  by_cases hmatch : HeaderMatches operation checkpointOp hdr
  · obtain ⟨hfound, hop, hsmall, hrecords⟩ := hmatches.1 hmatch
    rw [if_pos hmatch, if_neg (not_not.2 hfound), if_neg hop, if_neg hsmall, if_neg hrecords,
      ofOption_bind₃, TBConfig.walBodyOffset_eq hslot hprepares]
    cases hoffset : (prof.fit (config.walBodyAt slot) : Option U64) with
    | none =>
        obtain ⟨hdebug, hover⟩ := Profile.fit_eq_none_iff.1 hoffset
        exact .inl ⟨hdebug, hmatch, hover, rfl⟩
    | some bodyOffset =>
        right
        constructor
        · rintro ⟨hdebug, -, hover⟩
          rw [Profile.fit_eq_none_iff.2 ⟨hdebug, hover⟩] at hoffset
          cases hoffset
        · rw [wrapped, ← Profile.toNat_of_fit hoffset]
          exact readBody_reads bodyOffset (by omega)
  · right
    refine ⟨fun h => hmatch h.2.1, ?_⟩
    rw [if_neg hmatch]
    split_ifs with hfound hop hsmall hrecords
    · exact .skipped
    · exact .skipped
    · exact .skipped
    · exact .skipped
    · exact absurd (hmatches.2 ⟨not_not.1 hfound, hop, hsmall, hrecords⟩) hmatch

/-- A slot is read as in exact arithmetic with its offsets wrapped, unless the checked build
panics at the offset of a body. -/
theorem readSlot_cases (hslot : slot < config.journalSlotCount.toNat)
    (hheaders : config.walHeadersStart prof = some headersStart)
    (hprepares : config.walPreparesStart prof = some preparesStart) :
    (prof = .debug ∧ BodyOverflows config file operation checkpointOp slot ∧
        readSlot prof config file operation checkpointOp headersStart preparesStart slot = .panic) ∨
      ¬ (prof = .debug ∧ BodyOverflows config file operation checkpointOp slot) ∧
      ReadsAs (readSlot prof config file operation checkpointOp headersStart preparesStart slot)
        (slotBody wrapped config file operation checkpointOp slot) := by
  obtain ⟨hdrOffset, hfit⟩ := TBConfig.exists_walHeaderOffset hslot hprepares
  have hwrap := Profile.toNat_of_fit hfit
  have hexact : prof = .debug → hdrOffset.toNat = config.walHeaderAt slot := by
    rintro rfl
    rw [hwrap, Profile.mod_of_fit_debug hfit]
  have hoffset := hfit
  rw [← TBConfig.walHeaderOffset_eq hslot hheaders, Option.bind_eq_bind,
    Option.bind_eq_some_iff] at hoffset
  obtain ⟨hdrSkipped, hskipped, hoffset⟩ := hoffset
  rw [readSlot, hskipped, Outcome.ofOption_some, Outcome.ok_bind, hoffset, Outcome.ofOption_some,
    Outcome.ok_bind, slotBody, wrapped, ← hwrap]
  rcases file.seek_readExact_cases hdrOffset (by decide : 0 < 256) with
    ⟨hdr, hhdr, hseek, hread⟩ | ⟨hnone, hfail⟩
  · rw [hhdr, hseek, hread]
    rcases @readMessage_cases prof config file operation checkpointOp preparesStart slot hdr hslot
        hprepares (DataFile.length_of_bytesAt hhdr) with
      ⟨hdebug, hmatch, hover, hpanic⟩ | ⟨hfits, hreads⟩
    · rw [hexact hdebug] at hhdr
      exact .inl ⟨hdebug, ⟨⟨hdr, hhdr, hmatch⟩, hover⟩, hpanic⟩
    · refine .inr ⟨?_, hreads⟩
      rintro ⟨hdebug, ⟨hdr', hhdr', hmatch⟩, hover⟩
      rw [← hexact hdebug, hhdr, Option.some.injEq] at hhdr'
      exact hfits ⟨hdebug, hhdr' ▸ hmatch, hover⟩
  · right
    constructor
    · rintro ⟨hdebug, ⟨hdr', hhdr', -⟩, -⟩
      rw [← hexact hdebug, hnone] at hhdr'
      cases hhdr'
    · rcases hfail with ⟨e, hseek⟩ | ⟨hseek, e, hread⟩
      · rw [hnone, hseek]
        exact .failed _
      · rw [hnone, hseek, hread]
        exact .failed _

end ReadSlot

/-! ## The log in exact arithmetic -/

section Journal

variable {α : Type} [TBObject α]

def bodyReading : Option (Option (List U8)) → Reading Unit α
  | none => .failed ()
  | some none => .nil
  | some (some body) => .ofItems (bodyRecords body 0 (body.length / recordSize))

theorem stop_bodyReading (m : Option (Option (List U8))) :
    (bodyReading m : Reading Unit α).stop = .ok () ↔ m.isSome := by
  cases m with
  | none => simp [bodyReading, Reading.failed]
  | some found => cases found <;> simp [bodyReading, Reading.nil, Reading.ofItems]

theorem finished_bodyReading (m : Option (Option (List U8))) :
    (bodyReading m : Reading Unit α).stop.Finished := by
  cases m with
  | none => trivial
  | some found => cases found <;> trivial

/-- The records of the matching slots, up to the first slot that cannot be read. -/
def journalReading (α : Type) [TBObject α] [WalObject α] (config : TBConfig) (file : DataFile)
    (checkpointOp : U64) : Reading Unit α :=
  .join ((List.range config.journalSlotCount.toNat).map fun slot =>
    bodyReading (slotBody id config file (WalObject.walOperation α) checkpointOp slot))

end Journal

/-- The headers of all slots are at 64-bit offsets, and so are, up to the first slot that cannot
be read, the bodies of the matching ones. -/
structure JournalAddressed (config : TBConfig) (file : DataFile) (operation : U8)
    (checkpointOp : U64) : Prop where
  prepares : config.walPreparesAt < 2 ^ 64
  bodies : ∀ slot < config.journalSlotCount.toNat,
    (∀ s < slot, (slotBody id config file operation checkpointOp s).isSome) →
      ¬ BodyOverflows config file operation checkpointOp slot

section Refinement

variable {α : Type} [TBObject α] [WalObject α] {prof : Profile} {config : TBConfig}
  {file : DataFile} {operation : U8} {checkpointOp headersStart preparesStart : U64} {slot : ℕ}

theorem slotBody_wrapped (hslot : slot < config.journalSlotCount.toNat)
    (hprepares : config.walPreparesAt < 2 ^ 64)
    (hbody : ¬ BodyOverflows config file operation checkpointOp slot) :
    slotBody wrapped config file operation checkpointOp slot =
      slotBody id config file operation checkpointOp slot := by
  have hheader : wrapped (config.walHeaderAt slot) = config.walHeaderAt slot :=
    Nat.mod_eq_of_lt ((TBConfig.walHeaderAt_le hslot).trans_lt hprepares)
  simp only [slotBody, hheader, id_eq, Option.bind_eq_bind]
  cases hhdr : file.bytesAt (config.walHeaderAt slot) 256 with
  | none => rw [Option.bind_none, Option.bind_none]
  | some hdr =>
      rw [Option.bind_some, Option.bind_some]
      by_cases hmatch : HeaderMatches operation checkpointOp hdr
      · have hlt : config.walBodyAt slot < 2 ^ 64 := by
          by_contra hover
          exact hbody ⟨⟨hdr, hhdr, hmatch⟩, not_lt.1 hover⟩
        rw [if_pos hmatch, if_pos hmatch, wrapped, Nat.mod_eq_of_lt hlt]
      · rw [if_neg hmatch, if_neg hmatch]

theorem ReadsAs.slotReading
    (h : ReadsAs (readSlot prof config file (WalObject.walOperation α) checkpointOp headersStart
      preparesStart slot) (slotBody wrapped config file (WalObject.walOperation α) checkpointOp
        slot)) :
    (slotReading prof config file checkpointOp headersStart preparesStart slot :
        Reading ReaderError α).mapErr (fun _ => ()) =
      bodyReading (slotBody wrapped config file (WalObject.walOperation α) checkpointOp slot) := by
  rw [WalObjectIter.slotReading]
  generalize slotBody wrapped config file (WalObject.walOperation α) checkpointOp slot = m at h ⊢
  generalize readSlot prof config file (WalObject.walOperation α) checkpointOp headersStart
    preparesStart slot = x at h ⊢
  cases h with
  | failed e => rfl
  | skipped => rfl
  | loaded body => rfl

theorem stop_mapErr_iff {ε ε' β : Type} {f : ε → ε'} {r : Reading ε β} :
    (r.mapErr f).stop = .ok () ↔ r.stop = .ok () := by
  obtain ⟨items, stop⟩ := r
  cases stop <;> simp [Reading.mapErr, Outcome.mapErr]

/-- What follows counts only where the first reading ends. -/
theorem append_congr_of_stop {ε β : Type} {r s s' : Reading ε β}
    (h : r.stop = .ok () → s = s') : r ++ s = r ++ s' := by
  by_cases hstop : r.stop = .ok ()
  · rw [h hstop]
  · rw [Reading.append_of_stop_ne hstop, Reading.append_of_stop_ne hstop]

theorem slotReading_mapErr (hslot : slot < config.journalSlotCount.toNat)
    (hfits : config.walPreparesAt < 2 ^ 64)
    (hheaders : config.walHeadersStart prof = some headersStart)
    (hprepares : config.walPreparesStart prof = some preparesStart)
    (hbody : ¬ BodyOverflows config file (WalObject.walOperation α) checkpointOp slot) :
    (slotReading prof config file checkpointOp headersStart preparesStart slot :
        Reading ReaderError α).mapErr (fun _ => ()) =
      bodyReading (slotBody id config file (WalObject.walOperation α) checkpointOp slot) := by
  rw [← slotBody_wrapped hslot hfits hbody]
  rcases @readSlot_cases prof config file (WalObject.walOperation α) checkpointOp headersStart
      preparesStart slot hslot hheaders hprepares with ⟨-, hover, -⟩ | ⟨-, hreads⟩
  · exact absurd hover hbody
  · exact hreads.slotReading

theorem slots_mapErr (hfits : config.walPreparesAt < 2 ^ 64)
    (hheaders : config.walHeadersStart prof = some headersStart)
    (hprepares : config.walPreparesStart prof = some preparesStart) {first left : ℕ}
    (hle : first + left ≤ config.journalSlotCount.toNat)
    (h : ∀ slot, first ≤ slot → slot < first + left →
      (∀ s, first ≤ s → s < slot →
        (slotBody id config file (WalObject.walOperation α) checkpointOp s).isSome) →
      ¬ BodyOverflows config file (WalObject.walOperation α) checkpointOp slot) :
    (Reading.join ((List.range' first left).map
        (slotReading (α := α) prof config file checkpointOp headersStart preparesStart))).mapErr
          (fun _ => ()) =
      .join ((List.range' first left).map fun slot =>
        bodyReading (slotBody id config file (WalObject.walOperation α) checkpointOp slot)) := by
  induction left generalizing first with
  | zero => rfl
  | succ left ih =>
      have hfirst := h first le_rfl (by omega) fun s hs hlt => absurd hlt (not_lt.2 hs)
      rw [List.range'_succ, List.map_cons, List.map_cons, Reading.join_cons, Reading.join_cons,
        Reading.mapErr_append,
        slotReading_mapErr (by omega) hfits hheaders hprepares hfirst]
      apply append_congr_of_stop
      intro hstop
      apply ih (by omega)
      intro slot hslot hlt hread
      refine h slot (by omega) (by omega) fun s hs hlt' => ?_
      by_cases heq : s = first
      · exact heq ▸ (stop_bodyReading _).1 hstop
      · exact hread s (by omega) hlt'

/-- The checked build panics at the first body whose offset overflows. -/
theorem slots_panic (hfits : config.walPreparesAt < 2 ^ 64)
    (hheaders : config.walHeadersStart .debug = some headersStart)
    (hprepares : config.walPreparesStart .debug = some preparesStart) {first left : ℕ}
    (hle : first + left ≤ config.journalSlotCount.toNat)
    (h : ∃ slot, first ≤ slot ∧ slot < first + left ∧
      (∀ s, first ≤ s → s < slot →
        (slotBody id config file (WalObject.walOperation α) checkpointOp s).isSome) ∧
      BodyOverflows config file (WalObject.walOperation α) checkpointOp slot) :
    (Reading.join ((List.range' first left).map
      (slotReading (α := α) .debug config file checkpointOp headersStart preparesStart))).stop =
        .panic := by
  induction left generalizing first with
  | zero =>
      obtain ⟨slot, hslot, hlt, -⟩ := h
      omega
  | succ left ih =>
      rw [List.range'_succ, List.map_cons, Reading.join_cons]
      apply Reading.stop_append_panic
      by_cases hfirst : BodyOverflows config file (WalObject.walOperation α) checkpointOp first
      · left
        have hslot : first < config.journalSlotCount.toNat := by omega
        rcases @readSlot_cases .debug config file (WalObject.walOperation α) checkpointOp
            headersStart preparesStart first hslot hheaders hprepares with
          ⟨-, -, hpanic⟩ | ⟨hnot, -⟩
        · rw [WalObjectIter.slotReading, hpanic]
          rfl
        · exact absurd ⟨rfl, hfirst⟩ hnot
      · right
        obtain ⟨slot, hslot, hlt, hread, hover⟩ := h
        have hne : first ≠ slot := by
          rintro rfl
          exact hfirst hover
        constructor
        · rw [← stop_mapErr_iff, slotReading_mapErr (by omega) hfits hheaders hprepares hfirst,
            stop_bodyReading]
          exact hread first le_rfl (by omega)
        · exact ih (by omega) ⟨slot, by omega, by omega,
            fun s hs hlt' => hread s (by omega) hlt', hover⟩

end Refinement

/-- The calls of the iterator produce the records of the log, or those before the first slot that
cannot be read and then one error, and nothing after them; the text of the error is not
compared. -/
def RefinesJournal (α : Type) [TBObject α] [WalObject α] (prof : Profile) (config : TBConfig)
    (file : DataFile) (checkpointOp : U64) : Prop :=
  ∃ xs, Outcome.Produces (next (α := α) prof config file) (new checkpointOp) xs ∧
    xs.map (Except.mapError fun _ => ()) = (journalReading α config file checkpointOp).results

section Iterator

variable (α : Type) [TBObject α] [WalObject α] {config : TBConfig} {file : DataFile}
  {checkpointOp : U64}

theorem rest_new (prof : Profile) :
    ((new checkpointOp).InBody ∧ (new checkpointOp).slot ≤ config.journalSlotCount.toNat) ∧
      rest prof config file (new checkpointOp) =
        (logReading prof config file checkpointOp 0 : Reading ReaderError α) :=
  ⟨⟨⟨Nat.le_refl 0, Nat.le_refl 0⟩, Nat.zero_le _⟩, rfl⟩

theorem logReading_of_fits (prof : Profile) (hfits : config.walPreparesAt < 2 ^ 64) :
    ∃ headersStart preparesStart, config.walHeadersStart prof = some headersStart ∧
      config.walPreparesStart prof = some preparesStart ∧
      (logReading prof config file checkpointOp 0 : Reading ReaderError α) =
        .join ((List.range' 0 config.journalSlotCount.toNat).map
          (slotReading prof config file checkpointOp headersStart preparesStart)) := by
  have hheaders : config.superblockCopies.toNat * config.superblockCopySize.toNat < 2 ^ 64 := by
    unfold TBConfig.walPreparesAt at hfits
    omega
  have hheaders' := TBConfig.walHeadersStart_eq.trans (prof.fit_of_lt hheaders)
  have hprepares' := TBConfig.walPreparesStart_eq.trans (prof.fit_of_lt hfits)
  refine ⟨_, _, hheaders', hprepares', ?_⟩
  rw [logReading, hheaders', hprepares']
  rfl

theorem refinesJournal_of_addressed (prof : Profile)
    (h : JournalAddressed config file (WalObject.walOperation α) checkpointOp) :
    RefinesJournal α prof config file checkpointOp := by
  obtain ⟨headersStart, preparesStart, hheaders, hprepares, hlog⟩ :=
    @logReading_of_fits α _ _ config file checkpointOp prof h.prepares
  obtain ⟨hnew, hrest⟩ := @rest_new α _ _ config file checkpointOp prof
  have hmap : (logReading prof config file checkpointOp 0 : Reading ReaderError α).mapErr
      (fun _ => ()) = journalReading α config file checkpointOp := by
    rw [hlog, slots_mapErr h.prepares hheaders hprepares (Nat.zero_add _).le, journalReading,
      List.range_eq_range']
    intro slot _ hlt hread
    exact h.bodies slot (by omega) fun s hs => hread s (Nat.zero_le s) hs
  have hfinished : (journalReading α config file checkpointOp).stop.Finished := by
    apply Reading.finished_join
    intro r hr
    obtain ⟨slot, -, rfl⟩ := List.mem_map.1 hr
    exact finished_bodyReading _
  rw [← hmap] at hfinished
  refine ⟨(logReading prof config file checkpointOp 0).results, ?_, ?_⟩
  · exact (next_simulates prof config file).produces ⟨hnew, hrest⟩
      (Reading.finished_of_mapErr hfinished)
  · rw [← Reading.results_mapErr, hmap]

theorem nextCalls_panic
    (h : ¬ JournalAddressed config file (WalObject.walOperation α) checkpointOp) :
    ∃ n, Outcome.nextCalls (next (α := α) .debug config file) n (new checkpointOp) = .panic := by
  obtain ⟨hnew, hrest⟩ := @rest_new α _ _ config file checkpointOp .debug
  refine ⟨_, (next_simulates .debug config file).nextCalls_panic ⟨hnew, hrest⟩ ?_⟩
  by_cases hfits : config.walPreparesAt < 2 ^ 64
  · obtain ⟨headersStart, preparesStart, hheaders, hprepares, hlog⟩ :=
      @logReading_of_fits α _ _ config file checkpointOp .debug hfits
    rw [hlog]
    apply slots_panic hfits hheaders hprepares (Nat.zero_add _).le
    by_contra hnone
    refine h ⟨hfits, fun slot hslot hread hover => hnone ⟨slot, Nat.zero_le _, by omega, ?_, hover⟩⟩
    exact fun s _ hs => hread s hs
  · have hprepares : config.walPreparesStart .debug = none := by
      rw [TBConfig.walPreparesStart_eq]
      exact Profile.fit_eq_none_iff.2 ⟨rfl, not_lt.1 hfits⟩
    rw [logReading, hprepares]
    cases config.walHeadersStart .debug <;> rfl

/-- For every file, layout and checkpoint, the iterator of every build yields the pre-checkpoint
records of its type exactly when the offsets of the log fit in 64 bits: the start of the messages
and, up to the first slot that cannot be read, the bodies of the matching slots. -/
theorem refinesJournal_iff (config : TBConfig) (file : DataFile) (checkpointOp : U64) :
    (∀ prof, RefinesJournal α prof config file checkpointOp) ↔
      JournalAddressed config file (WalObject.walOperation α) checkpointOp := by
  constructor
  · intro hrefines
    by_contra haddressed
    obtain ⟨n, hn⟩ := nextCalls_panic α haddressed
    obtain ⟨xs, hproduces, -⟩ := hrefines .debug
    rw [hproduces n] at hn
    cases hn
  · intro haddressed prof
    exact refinesJournal_of_addressed α prof haddressed

end Iterator

/-- A log of three slots whose messages are 2^63 bytes apart. -/
def distantMessages : TBConfig where
  blockSize := 512
  superblockCopySize := 1536
  superblockCopies := 1
  gridZoneStart := 1536
  journalSlotCount := 3
  messageSizeMax := 0x8000000000000000

/-- The header of slot 2 announces a message with one record. Account 1 is where the body of
slot 0 would be. -/
def wrappedSlotFile : DataFile where
  bytes := Manifest.sparse 2688 [(40, 1), (2144, 128), (2145, 1), (2272, 1), (2300, 138), (2560, 1)]
  length_lt := by
    rw [Manifest.length_sparse]
    omega

/-- The body of slot 2 is beyond the end of the file, but its offset wraps to that of slot 0, and
account 1 is returned. -/
theorem wrappedSlot_not_refined :
    iterWalAccounts .release distantMessages wrappedSlotFile = .ok (new 0) ∧
    (journalReading Account distantMessages wrappedSlotFile 0).results = [.error ()] ∧
    Outcome.nextCalls (next (α := Account) .release distantMessages wrappedSlotFile) 1 (new 0) =
      .ok [some (.ok (.holding 1 0 0 0 0))] ∧
    ¬ RefinesJournal Account .release distantMessages wrappedSlotFile 0 := by
  have hresults : (journalReading Account distantMessages wrappedSlotFile 0).results =
      [.error ()] := by
    decide +kernel
  have hcall : Outcome.nextCalls
      (next (α := Account) .release distantMessages wrappedSlotFile) 1 (new 0) =
        .ok [some (.ok (.holding 1 0 0 0 0))] := by
    decide +kernel
  refine ⟨by decide +kernel, hresults, hcall, ?_⟩
  rintro ⟨xs, hproduces, hmap⟩
  rw [hresults] at hmap
  obtain ⟨x, xs', rfl, hx, -⟩ := List.map_eq_cons_iff.1 hmap
  rw [hproduces 1] at hcall
  cases x with
  | error e => cases hcall
  | ok a => cases hx

end WalObjectIter

end TbManager
