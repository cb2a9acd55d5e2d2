import TbManager.LogicalClock
import TbManager.MachineInt
import TbManager.Runs

/-!
# Time-based identifiers

`id()` of the client: a global generator behind a mutex, made at the first call,
that packs the milliseconds since the epoch and a random part of 80 bits into an
identifier. The stamps of the generator follow each other at the readings of the
system clock, whatever it reads.
-/

namespace TbManager

structure SystemTime where
  seconds : ℤ
  nanos : ℕ
  hseconds : -2 ^ 63 ≤ seconds ∧ seconds < 2 ^ 63
  hnanos : nanos < 10 ^ 9
  deriving DecidableEq

/-- `duration_since(UNIX_EPOCH)` in whole milliseconds, zero before the epoch. -/
def SystemTime.millis (now : SystemTime) : U128 :=
  if now.seconds < 0 then 0
  else BitVec.ofNat 128 (now.seconds.toNat * 1000 + now.nanos / 10 ^ 6)

def u80Mask : U128 := 0xFFFFFFFFFFFFFFFFFFFF#128

def isU80 (val : U128) : Bool := val ≤ u80Mask

structure Draw where
  a : U64
  b : U64
  deriving DecidableEq, Repr

def randomU128 (draw : Draw) : U128 := draw.a.setWidth 128 ||| draw.b.setWidth 128 <<< 64

def randomU80 (draw : Draw) : U128 := randomU128 draw &&& u80Mask

structure TbidGenerator where
  msSinceEpoch : U128
  random : U128
  deriving DecidableEq, Repr

namespace TbidGenerator

def new (now : SystemTime) (draw : Draw) : TbidGenerator where
  msSinceEpoch := now.millis
  random := randomU80 draw

/-- `next_random`; no value of the outer option is the failed assertion. -/
def nextRandom (g : TbidGenerator) : Option (Option U128) :=
  if isU80 g.random then some (if g.random = u80Mask then none else some (g.random + 1)) else none

/-- `next_state_from_system_time`; no value is a panic. -/
def nextStateFromSystemTime (g : TbidGenerator) (now : SystemTime) (draw : Draw) :
    Option TbidGenerator :=
  let previousMs := g.msSinceEpoch
  let nextMs := now.millis
  match compare nextMs.toNat previousMs.toNat with
  | .gt => some ⟨nextMs, randomU80 draw⟩
  | .eq | .lt => do
    match ← g.nextRandom with
    | some nextRandom => some ⟨previousMs, nextRandom⟩
    | none =>
      let carried ← checkedAdd previousMs 1
      some ⟨carried, randomU80 draw⟩

def pack (g : TbidGenerator) : U128 := g.msSinceEpoch <<< 80 ||| g.random

def nextFromSystemTime (g : TbidGenerator) (now : SystemTime) (draw : Draw) :
    Option (TbidGenerator × U128) := do
  let g' ← g.nextStateFromSystemTime now draw
  if isU80 g'.random then some (g', g'.pack) else none

def nextAll : TbidGenerator → List (SystemTime × Draw) → Option (List U128)
  | _, [] => some []
  | g, (now, draw) :: rest => do
    let (g', id) ← g.nextFromSystemTime now draw
    let ids ← g'.nextAll rest
    some (id :: ids)

/-! ## The stamps of a generator -/

abbrev ticks : ℕ := 2 ^ 80

def stamp (g : TbidGenerator) : Stamp := ⟨g.msSinceEpoch.toNat, g.random.toNat⟩

theorem isU80_iff (val : U128) : isU80 val = true ↔ val.toNat < ticks := by
  rw [isU80, decide_eq_true_eq, BitVec.le_def, ← Nat.lt_succ_iff]
  rfl

theorem isU80_randomU80 (draw : Draw) : isU80 (randomU80 draw) = true := by
  rw [isU80, decide_eq_true_eq, BitVec.le_def, randomU80, BitVec.toNat_and]
  exact Nat.and_le_right

/-- An identifier is the code of its stamp while the milliseconds have 48 bits. -/
theorem toNat_pack {g : TbidGenerator} (hrandom : isU80 g.random = true)
    (hms : g.msSinceEpoch.toNat < 2 ^ 48) :
    g.pack.toNat = g.stamp.code ticks := by
  rw [isU80_iff] at hrandom
  have hshift : g.msSinceEpoch.toNat <<< 80 < 2 ^ 128 := by
    rw [Nat.shiftLeft_eq]
    omega
  rw [pack, BitVec.toNat_or, BitVec.toNat_shiftLeft, Nat.mod_eq_of_lt hshift,
    ← Nat.shiftLeft_add_eq_or_of_lt hrandom, Nat.shiftLeft_eq]
  rfl

theorem nextStateFromSystemTime_later {g : TbidGenerator} {now : SystemTime}
    (hlater : g.msSinceEpoch.toNat < now.millis.toNat) (draw : Draw) :
    g.nextStateFromSystemTime now draw = some ⟨now.millis, randomU80 draw⟩ := by
  rw [nextStateFromSystemTime, Nat.compare_eq_gt.2 hlater]

/-- A clock that is not ahead of the generator is not looked at. -/
theorem nextStateFromSystemTime_earlier {g : TbidGenerator} {now : SystemTime}
    (hearlier : now.millis.toNat ≤ g.msSinceEpoch.toNat) (hrandom : isU80 g.random = true)
    (draw : Draw) :
    g.nextStateFromSystemTime now draw =
      if g.random = u80Mask then
        (checkedAdd g.msSinceEpoch 1).map fun carried => ⟨carried, randomU80 draw⟩
      else some ⟨g.msSinceEpoch, g.random + 1⟩ := by
  have hstate : g.nextStateFromSystemTime now draw = g.nextRandom.bind fun next =>
      match next with
      | some nextRandom => some ⟨g.msSinceEpoch, nextRandom⟩
      | none => (checkedAdd g.msSinceEpoch 1).bind fun carried =>
          some ⟨carried, randomU80 draw⟩ := by
    rw [nextStateFromSystemTime]
    rcases hearlier.lt_or_eq with h | h
    · rw [Nat.compare_eq_lt.2 h]
      rfl
    · rw [Nat.compare_eq_eq.2 h]
      rfl
  rw [hstate, nextRandom, if_pos hrandom, Option.bind_some]
  split_ifs with hfull
  · cases checkedAdd g.msSinceEpoch 1 <;> rfl
  · rfl

/-- The state after a call follows at the reading of the clock, and nothing panics before
the milliseconds reach `2 ^ 128`. -/
theorem nextStateFromSystemTime_next {g : TbidGenerator} (hrandom : isU80 g.random = true)
    (hms : g.msSinceEpoch.toNat + 1 < 2 ^ 128) (now : SystemTime) (draw : Draw) :
    ∃ g', isU80 g'.random = true ∧ g.nextStateFromSystemTime now draw = some g' ∧
      Stamp.Next ticks now.millis.toNat g.stamp g'.stamp := by
  have hdraw := (isU80_iff _).1 (isU80_randomU80 draw)
  have hticks := (isU80_iff _).1 hrandom
  by_cases hlater : g.msSinceEpoch.toNat < now.millis.toNat
  · exact ⟨_, isU80_randomU80 draw, nextStateFromSystemTime_later hlater draw,
      .advance hlater hdraw⟩
  have hearlier := not_lt.1 hlater
  have hstate := nextStateFromSystemTime_earlier hearlier hrandom draw
  by_cases hfull : g.random = u80Mask
  · -- the random part is used up: the bit is carried to the milliseconds
    have hcarried : (g.msSinceEpoch + 1).toNat = g.msSinceEpoch.toNat + 1 :=
      BitVec.toNat_add_of_lt hms
    have hadd : checkedAdd g.msSinceEpoch 1 = some (g.msSinceEpoch + 1) :=
      (checkedAdd_eq_some_iff _ _ _).2 hcarried
    refine ⟨⟨g.msSinceEpoch + 1, randomU80 draw⟩, isU80_randomU80 draw, ?_, ?_⟩
    · rw [hstate, if_pos hfull, hadd]
      rfl
    · have hstamp : (⟨g.msSinceEpoch + 1, randomU80 draw⟩ : TbidGenerator).stamp =
          ⟨g.stamp.time + 1, (randomU80 draw).toNat⟩ := Stamp.ext hcarried rfl
      have hexhausted : g.stamp.tick + 1 = ticks := by
        change g.random.toNat + 1 = ticks
        rw [hfull]
        decide
      rw [hstamp]
      exact .carry hearlier hexhausted hdraw
  · have hlt : g.random.toNat + 1 < ticks := by
      have hne : g.random.toNat ≠ u80Mask.toNat := fun h => hfull (BitVec.eq_of_toNat_eq h)
      have hmask : u80Mask.toNat + 1 = ticks := by decide
      omega
    have hcounted : (g.random + 1).toNat = g.random.toNat + 1 :=
      BitVec.toNat_add_of_lt (hlt.trans (by decide))
    refine ⟨⟨g.msSinceEpoch, g.random + 1⟩, ?_, ?_, ?_⟩
    · rwa [isU80_iff, hcounted]
    · rw [hstate, if_neg hfull]
    · have hstamp : (⟨g.msSinceEpoch, g.random + 1⟩ : TbidGenerator).stamp =
          ⟨g.stamp.time, g.stamp.tick + 1⟩ := Stamp.ext rfl hcounted
      rw [hstamp]
      exact .count hearlier hlt

theorem nextFromSystemTime_next {g : TbidGenerator} (hrandom : isU80 g.random = true)
    (hms : g.msSinceEpoch.toNat + 1 < 2 ^ 128) (now : SystemTime) (draw : Draw) :
    ∃ g' : TbidGenerator, isU80 g'.random = true ∧
      g.nextFromSystemTime now draw = some (g', g'.pack) ∧
      Stamp.Next ticks now.millis.toNat g.stamp g'.stamp := by
  obtain ⟨g', hrandom', hstate, hnext⟩ := nextStateFromSystemTime_next hrandom hms now draw
  refine ⟨g', hrandom', ?_, hnext⟩
  rw [nextFromSystemTime, hstate]
  exact if_pos hrandom'

/-! ## Identifiers and the clock -/

theorem nextAll_series {g : TbidGenerator} (hrandom : isU80 g.random = true) {latest : ℕ}
    (hms : g.msSinceEpoch.toNat ≤ latest) {calls : List (SystemTime × Draw)}
    (hclock : ∀ call ∈ calls, call.1.millis.toNat ≤ latest)
    (h48 : latest + calls.length < 2 ^ 48) :
    ∃ ids stamps, g.nextAll calls = some ids ∧
      Stamp.Series ticks g.stamp (calls.map fun call => call.1.millis.toNat) stamps ∧
      ids.map BitVec.toNat = stamps.map (Stamp.code ticks) := by
  induction calls generalizing g latest with
  | nil => exact ⟨[], [], rfl, .nil _, rfl⟩
  | cons call calls ih =>
      obtain ⟨now, draw⟩ := call
      rw [List.length_cons] at h48
      obtain ⟨hnow, hlater⟩ := List.forall_mem_cons.1 hclock
      obtain ⟨g', hrandom', hcall, hnext⟩ :=
        nextFromSystemTime_next hrandom (by omega) now draw
      have hms' : g'.msSinceEpoch.toNat ≤ latest + 1 := by
        have hle := hnext.time_le hms hnow
        refine hle.trans (Nat.add_le_add_left ?_ _)
        split_ifs
        · exact le_rfl
        · exact Nat.zero_le 1
      obtain ⟨ids, stamps, hids, hseries, hcodes⟩ :=
        ih hrandom' hms' (fun c hc => Nat.le_succ_of_le (hlater c hc)) (by omega)
      refine ⟨g'.pack :: ids, g'.stamp :: stamps, ?_, .cons hnext hseries, ?_⟩
      · rw [nextAll, hcall]
        change (g'.nextAll calls).bind _ = _
        rw [hids]
        rfl
      · rw [List.map_cons, List.map_cons, hcodes, toNat_pack hrandom' (by omega)]

def idMillis (id : U128) : ℕ := (id >>> 80).toNat

/-- The random part of an identifier is used up. -/
def idExhausted (id : U128) : Bool := id &&& u80Mask = u80Mask

theorem idMillis_eq (id : U128) : idMillis id = id.toNat / ticks := by
  rw [idMillis, BitVec.toNat_ushiftRight, Nat.shiftRight_eq_div_pow]

theorem idExhausted_iff (id : U128) : idExhausted id = true ↔ id.toNat % ticks + 1 = ticks := by
  have hmask : u80Mask.toNat = ticks - 1 := by decide
  have hrandom : (id &&& u80Mask).toNat = id.toNat % ticks := by
    rw [BitVec.toNat_and, hmask, Nat.and_two_pow_sub_one_eq_mod]
  rw [idExhausted, decide_eq_true_eq, ← BitVec.toNat_inj, hrandom, hmask]
  exact ⟨fun h => by rw [h]; rfl, Nat.eq_sub_of_add_eq⟩

/-- What the identifiers of successive calls tell of the clock, in milliseconds, that has not
passed `latest`. -/
structure FollowsClock (g : TbidGenerator) (latest : ℕ) (calls : List (SystemTime × Draw))
    (ids : List U128) : Prop where
  one_each : ids.length = calls.length
  increasing : (g.pack :: ids).Pairwise (· < ·)
  not_behind : ∀ (k : ℕ) (call : SystemTime × Draw) (id : U128),
    calls[k]? = some call → ids[k]? = some id → call.1.millis.toNat ≤ idMillis id
  not_ahead : ∀ id ∈ ids, idMillis id ≤ latest + (g.pack :: ids).countP idExhausted
  sequential : (∀ call ∈ calls, call.1.millis.toNat ≤ g.msSinceEpoch.toNat) →
    g.random.toNat + calls.length < ticks →
    ids.map BitVec.toNat = List.range' (g.pack.toNat + 1) calls.length

theorem countP_idExhausted {ids : List U128} {stamps : List Stamp}
    (hcodes : ids.map BitVec.toNat = stamps.map (Stamp.code ticks))
    (hticks : ∀ s ∈ stamps, s.tick < ticks) :
    ids.countP idExhausted = stamps.countP (Stamp.Exhausted ticks ·) := by
  let full : ℕ → Bool := fun n => n % ticks + 1 = ticks
  calc
    ids.countP idExhausted = (ids.map BitVec.toNat).countP full := by
      rw [List.countP_map]
      refine List.countP_congr fun id _ => ?_
      rw [idExhausted_iff, Function.comp_apply, decide_eq_true_eq]
    _ = (stamps.map (Stamp.code ticks)).countP full := by rw [hcodes]
    _ = stamps.countP (Stamp.Exhausted ticks ·) := by
      rw [List.countP_map]
      refine List.countP_congr fun s hs => ?_
      rw [Function.comp_apply, decide_eq_true_eq, decide_eq_true_eq,
        Stamp.code_mod (hticks s hs), Stamp.Exhausted]

theorem followsClock_of_series {g : TbidGenerator} (hrandom : isU80 g.random = true)
    {latest : ℕ} (hms : g.msSinceEpoch.toNat ≤ latest) (h48 : latest < 2 ^ 48)
    {calls : List (SystemTime × Draw)} (hclock : ∀ call ∈ calls, call.1.millis.toNat ≤ latest)
    {ids : List U128} {stamps : List Stamp}
    (hseries : Stamp.Series ticks g.stamp (calls.map fun call => call.1.millis.toNat) stamps)
    (hcodes : ids.map BitVec.toNat = stamps.map (Stamp.code ticks)) :
    g.FollowsClock latest calls ids := by
  have htick : g.stamp.tick < ticks := (isU80_iff _).1 hrandom
  have hpack : g.pack.toNat = g.stamp.code ticks := toNat_pack hrandom (by omega)
  have hall : (g.pack :: ids).map BitVec.toNat = (g.stamp :: stamps).map (Stamp.code ticks) := by
    rw [List.map_cons, List.map_cons, hpack, hcodes]
  have hticks : ∀ s ∈ g.stamp :: stamps, s.tick < ticks :=
    List.forall_mem_cons.2 ⟨htick, hseries.tick_lt⟩
  have hstamp {k : ℕ} {id : U128} (hid : ids[k]? = some id) :
      ∃ s, stamps[k]? = some s ∧ idMillis id = s.time := by
    have hk := congrArg (fun codes => codes[k]?) hcodes
    simp only [List.getElem?_map, hid, Option.map_some] at hk
    obtain ⟨s, hs, hcode⟩ := Option.map_eq_some_iff.1 hk.symm
    refine ⟨s, hs, ?_⟩
    rw [idMillis_eq, ← hcode]
    exact Stamp.code_div (hseries.tick_lt s (List.mem_of_getElem? hs))
  have hclock' : ∀ reading ∈ calls.map (fun call => call.1.millis.toNat), reading ≤ latest :=
    List.forall_mem_map.2 hclock
  constructor
  · have hlength := congrArg List.length hcodes
    rw [List.length_map, List.length_map, hseries.length_eq, List.length_map] at hlength
    exact hlength
  · have hpairwise : ((g.pack :: ids).map BitVec.toNat).Pairwise (· < ·) := by
      rw [hall]
      exact List.pairwise_map.2
        (List.pairwise_cons.2 ⟨hseries.code_lt htick, hseries.pairwise⟩)
    exact (List.pairwise_map.1 hpairwise).imp BitVec.lt_def.2
  · intro k call id hcall hid
    obtain ⟨s, hs, hmillis⟩ := hstamp hid
    rw [hmillis]
    exact hseries.reading_le (by rw [List.getElem?_map, hcall]; rfl) hs
  · intro id hid
    obtain ⟨k, hk⟩ := List.mem_iff_getElem?.1 hid
    obtain ⟨s, hs, hmillis⟩ := hstamp hk
    rw [hmillis, countP_idExhausted hall hticks]
    exact hseries.time_le hms hclock' s (List.mem_of_getElem? hs)
  · intro hbehind hleft
    rw [hcodes, hpack]
    have hcount := hseries.code_eq (List.forall_mem_map.2 hbehind) (by
      rw [List.length_map]
      exact hleft)
    rwa [List.length_map] at hcount

/-- Whatever the clock reads and whatever is drawn, successive calls succeed and their identifiers
follow the clock. -/
theorem nextAll_followsClock {g : TbidGenerator} (hrandom : isU80 g.random = true) {latest : ℕ}
    (hms : g.msSinceEpoch.toNat ≤ latest) {calls : List (SystemTime × Draw)}
    (hclock : ∀ call ∈ calls, call.1.millis.toNat ≤ latest)
    (h48 : latest + calls.length < 2 ^ 48) :
    ∃ ids, g.nextAll calls = some ids ∧ g.FollowsClock latest calls ids := by
  obtain ⟨ids, stamps, hids, hseries, hcodes⟩ := nextAll_series hrandom hms hclock h48
  exact ⟨ids, hids, followsClock_of_series hrandom hms (by omega) hclock hseries hcodes⟩

def epoch : SystemTime := ⟨0, 0, by norm_num, by norm_num⟩

def beforeEpoch : SystemTime := ⟨-1, 0, by norm_num, by norm_num⟩

theorem nextAll_followsClock_exhausted :
    ∃ ids, (⟨7, u80Mask⟩ : TbidGenerator).nextAll [(beforeEpoch, ⟨1, 2⟩), (epoch, ⟨3, 4⟩)] =
        some ids ∧
      (⟨7, u80Mask⟩ : TbidGenerator).FollowsClock 7 [(beforeEpoch, ⟨1, 2⟩), (epoch, ⟨3, 4⟩)] ids :=
  nextAll_followsClock (by decide) (by decide) (by decide) (by decide)

end TbidGenerator

/-! ## The global generator -/

inductive IdStage where
  /-- The call does not hold the lock. -/
  | entered
  | returned (id : U128)
  | panicked
  deriving DecidableEq, Repr

/-- `GLOBAL_GENERATOR` behind its mutex and the calls of `id()`. -/
structure IdProcess where
  generator : Option TbidGenerator
  poisoned : Bool
  calls : List IdStage
  deriving DecidableEq, Repr

inductive IdAction where
  | call
  /-- A call takes the lock; the clock is read and the numbers are drawn under it. -/
  | lock (i : ℕ) (now : SystemTime) (draw : Draw)
  deriving DecidableEq

def IdAction.millis : IdAction → ℕ
  | call => 0
  | lock _ now _ => now.millis.toNat

namespace IdProcess

open IdStage TbidGenerator

def initial : IdProcess := ⟨none, false, []⟩

/-- The part of `id()` under the lock. The call that makes the generator drops the guard and starts
again; a panic under the lock poisons the mutex. -/
def lock (s : IdProcess) (i : ℕ) (now : SystemTime) (draw : Draw) : IdProcess :=
  if s.poisoned then { s with calls := s.calls.set i panicked }
  else
    match s.generator with
    | none => { s with generator := some (TbidGenerator.new now draw) }
    | some g =>
      match g.nextFromSystemTime now draw with
      | some (g', id) => { s with generator := some g', calls := s.calls.set i (returned id) }
      | none => { s with poisoned := true, calls := s.calls.set i panicked }

def step (s : IdProcess) : IdAction → Option IdProcess
  | .call => some { s with calls := s.calls ++ [entered] }
  | .lock i now draw => if s.calls[i]? = some entered then some (s.lock i now draw) else none

structure Inv (latest k : ℕ) (s : IdProcess) : Prop where
  unpoisoned : s.poisoned = false
  none_panicked : panicked ∉ s.calls
  random : ∀ g ∈ s.generator, isU80 g.random = true
  millis : ∀ g ∈ s.generator, g.msSinceEpoch.toNat ≤ latest + k
  issued : ∀ (i : ℕ) (id : U128), s.calls[i]? = some (returned id) →
    ∃ g ∈ s.generator, id.toNat ≤ g.stamp.code ticks
  distinct : ∀ (i j : ℕ) (id : U128), s.calls[i]? = some (returned id) →
    s.calls[j]? = some (returned id) → i = j

inductive Moves (s : IdProcess) : IdAction → IdProcess → Prop
  | called : Moves s .call { s with calls := s.calls ++ [entered] }
  | made {i : ℕ} {now : SystemTime} {draw : Draw} (hnone : s.generator = none) :
      Moves s (.lock i now draw) { s with generator := some (TbidGenerator.new now draw) }
  | issued {i : ℕ} {now : SystemTime} {draw : Draw} {g g' : TbidGenerator}
      (hg : s.generator = some g) (hi : s.calls[i]? = some entered)
      (hrandom : isU80 g'.random = true)
      (hnext : Stamp.Next ticks now.millis.toNat g.stamp g'.stamp) :
      Moves s (.lock i now draw)
        { s with generator := some g', calls := s.calls.set i (returned g'.pack) }

variable {latest k : ℕ} {s s' : IdProcess} {a : IdAction}

theorem step_moves (hi : s.Inv latest k) (h48 : latest + k < 2 ^ 48)
    (h : step s a = some s') : Moves s a s' := by
  cases a with
  | call =>
      cases h
      exact .called
  | lock i now draw =>
      rw [step] at h
      split_ifs at h with hentered
      cases h
      rw [lock, if_neg (by rw [hi.unpoisoned]; exact Bool.false_ne_true)]
      cases hg : s.generator with
      | none => exact .made hg
      | some g =>
          have hms := hi.millis g hg
          obtain ⟨g', hrandom', hcall, hnext⟩ :=
            nextFromSystemTime_next (hi.random g hg) (by omega) now draw
          dsimp only
          rw [hcall]
          exact .issued hg hentered hrandom' hnext

theorem getElem?_set_entered {calls : List IdStage} {i j : ℕ} {stage stage' : IdStage}
    (hi : calls[i]? = some entered) :
    (calls.set i stage)[j]? = some stage' ↔
      i = j ∧ stage = stage' ∨ i ≠ j ∧ calls[j]? = some stage' := by
  by_cases hij : i = j
  · subst hij
    rw [List.getElem?_set_self (List.getElem?_eq_some_iff.1 hi).1]
    simp
  · rw [List.getElem?_set_ne hij]
    simp [hij]

theorem getElem?_call {calls : List IdStage} {i : ℕ} {id : U128} :
    (calls ++ [entered])[i]? = some (returned id) ↔ calls[i]? = some (returned id) := by
  rw [List.getElem?_append]
  split_ifs with hi
  · rfl
  · rw [List.getElem?_eq_none (not_lt.1 hi)]
    cases i - calls.length <;> simp

/-- An identifier is greater than all that were issued before it. -/
theorem Inv.issued_lt (hi : s.Inv latest k) {g g' : TbidGenerator} (hg : s.generator = some g)
    {now : SystemTime} (hnext : Stamp.Next ticks now.millis.toNat g.stamp g'.stamp) {i : ℕ}
    {id : U128} (hid : s.calls[i]? = some (returned id)) :
    id.toNat < g'.stamp.code ticks := by
  obtain ⟨g₀, hg₀, hle⟩ := hi.issued i id hid
  obtain rfl := Option.some.inj (hg.symm.trans hg₀)
  exact hle.trans_lt (hnext.code_lt ((isU80_iff _).1 (hi.random g hg)))

theorem moves_inv (hi : s.Inv latest k) (ha : a.millis ≤ latest)
    (h48 : latest + (k + 1) < 2 ^ 48) (h : Moves s a s') : s'.Inv latest (k + 1) := by
  cases h with
  | called =>
      constructor
      · exact hi.unpoisoned
      · simpa using hi.none_panicked
      · exact hi.random
      · exact fun g hg => Nat.le_succ_of_le (hi.millis g hg)
      · exact fun i id hid => hi.issued i id (getElem?_call.1 hid)
      · exact fun i j id hid hjd => hi.distinct i j id (getElem?_call.1 hid) (getElem?_call.1 hjd)
  | @made i now draw hnone =>
      have hnever (i : ℕ) (id : U128) : s.calls[i]? ≠ some (returned id) := by
        intro hid
        obtain ⟨g, hg, _⟩ := hi.issued i id hid
        rw [hnone] at hg
        cases hg
      constructor
      · exact hi.unpoisoned
      · exact hi.none_panicked
      · rintro g hg
        cases hg
        exact isU80_randomU80 draw
      · rintro g hg
        cases hg
        exact Nat.le_add_right_of_le ha
      · exact fun i id hid => absurd hid (hnever i id)
      · exact hi.distinct
  | @issued i now draw g g' hg hentered hrandom hnext =>
      have hms' : g'.msSinceEpoch.toNat ≤ latest + (k + 1) := by
        refine (hnext.time_le (hi.millis g hg) (Nat.le_add_right_of_le ha)).trans ?_
        split_ifs <;> omega
      have hcode : g'.pack.toNat = g'.stamp.code ticks := toNat_pack hrandom (by omega)
      have hlt {i : ℕ} {id : U128} (hid : s.calls[i]? = some (returned id)) :
          id.toNat < g'.pack.toNat := by
        rw [hcode]
        exact hi.issued_lt hg hnext hid
      constructor
      · exact hi.unpoisoned
      · intro hmem
        rcases List.mem_or_eq_of_mem_set hmem with hold | hnew
        · exact hi.none_panicked hold
        · cases hnew
      · rintro g₁ hg₁
        cases hg₁
        exact hrandom
      · rintro g₁ hg₁
        cases hg₁
        exact hms'
      · intro j id hid
        refine ⟨g', rfl, ?_⟩
        rw [← hcode]
        rcases (getElem?_set_entered hentered).1 hid with ⟨_, hnew⟩ | ⟨_, hold⟩
        · cases hnew
          exact le_rfl
        · exact (hlt hold).le
      · intro j l id hjd hld
        rcases (getElem?_set_entered hentered).1 hjd with ⟨rfl, hnew⟩ | ⟨_, hold⟩ <;>
          rcases (getElem?_set_entered hentered).1 hld with ⟨rfl, hnew'⟩ | ⟨_, hold'⟩
        · rfl
        · cases hnew
          exact absurd (hlt hold') (lt_irrefl _)
        · cases hnew'
          exact absurd (hlt hold) (lt_irrefl _)
        · exact hi.distinct j l id hold hold'

theorem initial_inv (latest : ℕ) : initial.Inv latest 0 where
  unpoisoned := rfl
  none_panicked := List.not_mem_nil
  random := fun _ hg => nomatch hg
  millis := fun _ hg => nomatch hg
  issued := fun _ _ hid => nomatch hid
  distinct := fun _ _ _ hid => nomatch hid

/-- What has been issued stays issued, and later identifiers are greater. -/
structure Later (s s' : IdProcess) : Prop where
  kept : ∀ (i : ℕ) (id : U128), s.calls[i]? = some (returned id) →
    s'.calls[i]? = some (returned id)
  greater : ∀ (i j : ℕ) (x y : U128), s.calls[i]? = some (returned x) →
    (∀ z, s.calls[j]? ≠ some (returned z)) → s'.calls[j]? = some (returned y) → x < y

theorem Later.refl (s : IdProcess) : Later s s where
  kept := fun _ _ hid => hid
  greater := fun _ _ _ y _ hwaiting hy => absurd hy (hwaiting y)

theorem Later.step {s₀ : IdProcess} (hlater : Later s₀ s) (hi : s.Inv latest k)
    (ha : a.millis ≤ latest) (h48 : latest + (k + 1) < 2 ^ 48) (h : Moves s a s') :
    Later s₀ s' := by
  have hi' := moves_inv hi ha h48 h
  cases h with
  | called =>
      constructor
      · exact fun i id hid => getElem?_call.2 (hlater.kept i id hid)
      · exact fun i j x y hx hwaiting hy =>
          hlater.greater i j x y hx hwaiting (getElem?_call.1 hy)
  | made => exact ⟨hlater.kept, hlater.greater⟩
  | @issued i now draw g g' hg hentered hrandom hnext =>
      constructor
      · intro j id hid
        refine (getElem?_set_entered hentered).2 (.inr ⟨?_, hlater.kept j id hid⟩)
        rintro rfl
        rw [hlater.kept i id hid] at hentered
        cases hentered
      · intro j l x y hx hwaiting hy
        rcases (getElem?_set_entered hentered).1 hy with ⟨_, hnew⟩ | ⟨_, hold⟩
        · cases hnew
          have hms' := hi'.millis g' rfl
          rw [BitVec.lt_def, toNat_pack hrandom (by omega)]
          exact hi.issued_lt hg hnext (hlater.kept j x hx)
        · exact hlater.greater j l x y hx hwaiting hold

end IdProcess

end TbManager
