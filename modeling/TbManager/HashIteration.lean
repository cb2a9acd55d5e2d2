import TbManager.MachineInt

/-!
# Hash maps with an unspecified iteration order

A hash map is an association list with distinct keys. Reading it by key does not
depend on the order of the entries; iterating it does, and the order is then a
parameter: any arrangement of the entries.
-/

namespace TbManager

abbrev HashMap (κ ν : Type*) := AList fun _ : κ => ν

/-- An order in which the entries of a hash map may be visited. -/
structure IterOrder (κ ν : Type*) where
  arrange : List (Σ _ : κ, ν) → List (Σ _ : κ, ν)
  perm (es : List (Σ _ : κ, ν)) : (arrange es).Perm es

namespace IterOrder

variable {κ ν : Type*}

def stored : IterOrder κ ν := ⟨fun es => es, fun es => List.Perm.refl es⟩

def reversed : IterOrder κ ν := ⟨List.reverse, List.reverse_perm⟩

/-- The order that shows one given list of entries in a given arrangement. -/
def showing [DecidableEq κ] [DecidableEq ν] (es es' : List (Σ _ : κ, ν)) (h : es'.Perm es) :
    IterOrder κ ν where
  arrange l := if l = es then es' else l
  perm l := by
    split_ifs with hl
    · rw [hl]
      exact h
    · exact List.Perm.refl l

@[simp] theorem showing_arrange [DecidableEq κ] [DecidableEq ν] (es es' : List (Σ _ : κ, ν))
    (h : es'.Perm es) : (showing es es' h).arrange es = es' := if_pos rfl

end IterOrder

namespace HashMap

variable {κ ν α : Type*}

/-- The entries in the order of the iteration. -/
def iter (m : HashMap κ ν) (ord : IterOrder κ ν) : List (Σ _ : κ, ν) := ord.arrange m.entries

theorem iter_perm (m : HashMap κ ν) (ord : IterOrder κ ν) : (iter m ord).Perm m.entries :=
  ord.perm m.entries

variable [DecidableEq κ]

theorem mem_entries_iff (m : HashMap κ ν) (k : κ) (v : ν) :
    ⟨k, v⟩ ∈ m.entries ↔ m.lookup k = some v :=
  (List.mem_dlookup_iff m.nodupKeys).symm

theorem entries_perm_cons_erase {m : HashMap κ ν} {k : κ} {v : ν} (h : m.lookup k = some v) :
    m.entries.Perm (⟨k, v⟩ :: (m.erase k).entries) := by
  have hk : k ∈ m.entries.keys := AList.lookup_isSome.1 (Option.isSome_of_eq_some h)
  obtain ⟨v', l₁, l₂, _, he, hr⟩ := List.exists_of_kerase hk
  have hv : m.lookup k = some v' := (mem_entries_iff m k v').1 (by simp [he])
  rw [h, Option.some.injEq] at hv
  change m.entries.Perm (⟨k, v⟩ :: m.entries.kerase k)
  rw [hr, he, hv]
  exact List.perm_middle

/-! ## Overwriting insertion: the last value wins -/

def insertAll (key : α → κ) (val : α → ν) (m : HashMap κ ν) (xs : List α) : HashMap κ ν :=
  xs.foldl (fun m x => m.insert (key x) (val x)) m

theorem lookup_insert_eq (m : HashMap κ ν) (k k' : κ) (v : ν) :
    (m.insert k v).lookup k' = if k = k' then some v else m.lookup k' := by
  split_ifs with h
  · rw [h, AList.lookup_insert]
  · exact AList.lookup_insert_ne (Ne.symm h)

theorem lookup_insertAll (key : α → κ) (val : α → ν) (m : HashMap κ ν) (xs : List α) (k : κ) :
    (insertAll key val m xs).lookup k =
      ((xs.reverse.find? fun x => key x = k).map val).or (m.lookup k) := by
  induction xs generalizing m with
  | nil => rfl
  | cons x xs ih =>
      change (insertAll key val (m.insert (key x) (val x)) xs).lookup k = _
      rw [ih, lookup_insert_eq, List.reverse_cons, List.find?_append]
      by_cases hx : key x = k
      · cases xs.reverse.find? fun y => key y = k <;> simp [hx]
      · simp [hx]

/-! ## `entry(k).or_insert(v)`: the first value wins -/

def orInsert (m : HashMap κ ν) (k : κ) (v : ν) : HashMap κ ν :=
  match m.lookup k with
  | some _ => m
  | none => m.insert k v

def orInsertAll (key : α → κ) (val : α → ν) (m : HashMap κ ν) (xs : List α) : HashMap κ ν :=
  xs.foldl (fun m x => orInsert m (key x) (val x)) m

theorem lookup_orInsert (m : HashMap κ ν) (k k' : κ) (v : ν) :
    (orInsert m k v).lookup k' = (m.lookup k').or (if k = k' then some v else none) := by
  unfold orInsert
  cases hm : m.lookup k with
  | some u =>
      by_cases hk : k = k'
      · subst k'
        simp [hm]
      · simp [hk]
  | none =>
      by_cases hk : k = k'
      · subst k'
        simp [hm]
      · simp [hk, lookup_insert_eq]

theorem lookup_orInsertAll (key : α → κ) (val : α → ν) (m : HashMap κ ν) (xs : List α) (k : κ) :
    (orInsertAll key val m xs).lookup k =
      (m.lookup k).or ((xs.find? fun x => key x = k).map val) := by
  induction xs generalizing m with
  | nil => simp [orInsertAll]
  | cons x xs ih =>
      change (orInsertAll key val (orInsert m (key x) (val x)) xs).lookup k = _
      rw [ih, lookup_orInsert, Option.or_assoc]
      by_cases hx : key x = k <;> simp [hx]

/-! ## `entry(k).or_default().push(x)`: grouping -/

def pushEntry (m : HashMap κ (List α)) (k : κ) (x : α) : HashMap κ (List α) :=
  m.insert k ((m.lookup k).getD [] ++ [x])

def pushAll (key : α → κ) (m : HashMap κ (List α)) (xs : List α) : HashMap κ (List α) :=
  xs.foldl (fun m x => pushEntry m (key x) x) m

def members (m : HashMap κ (List α)) : List α := m.entries.flatMap Sigma.snd

theorem members_pushEntry (m : HashMap κ (List α)) (k : κ) (x : α) :
    (members (pushEntry m k x)).Perm (x :: members m) := by
  have hnew : members (pushEntry m k x) =
      (m.lookup k).getD [] ++ [x] ++ (m.erase k).entries.flatMap Sigma.snd := rfl
  have hx : ((m.lookup k).getD [] ++ [x]).Perm (x :: (m.lookup k).getD []) :=
    List.perm_append_comm
  rw [hnew]
  refine (hx.append_right _).trans ?_
  rw [List.cons_append]
  apply List.Perm.cons
  cases hm : m.lookup k with
  | some xs => exact ((entries_perm_cons_erase hm).flatMap_right Sigma.snd).symm
  | none =>
      have hk : k ∉ m.entries.keys := fun h => by
        have hs := AList.lookup_isSome.2 (show k ∈ m from h)
        simp [hm] at hs
      change (m.entries.kerase k |>.flatMap Sigma.snd).Perm (members m)
      rw [List.kerase_of_notMem_keys hk]
      exact List.Perm.refl _

/-- Grouping keeps every element exactly as often as it occurs. -/
theorem members_pushAll (key : α → κ) (m : HashMap κ (List α)) (xs : List α) :
    (members (pushAll key m xs)).Perm (members m ++ xs) := by
  induction xs generalizing m with
  | nil => simp [pushAll]
  | cons x xs ih =>
      refine (ih (pushEntry m (key x) x)).trans ?_
      exact ((members_pushEntry m (key x) x).append_right xs).trans List.perm_middle.symm

theorem mem_pushAll (key : α → κ) (m : HashMap κ (List α)) (xs : List α) (k : κ) :
    k ∈ pushAll key m xs ↔ k ∈ m ∨ k ∈ xs.map key := by
  induction xs generalizing m with
  | nil => simp [pushAll]
  | cons x xs ih =>
      change k ∈ pushAll key (pushEntry m (key x) x) xs ↔ _
      rw [ih, pushEntry, AList.mem_insert, List.map_cons, List.mem_cons]
      tauto

/-! ## `*entry(k).or_insert(0) += v`: sums by key -/

section Sums

variable {w : ℕ} {prof : Profile} {key : α → κ} {val : α → BitVec w}

def addEntry (prof : Profile) (m : HashMap κ (BitVec w)) (k : κ) (v : BitVec w) :
    Option (HashMap κ (BitVec w)) :=
  (prof.add ((m.lookup k).getD 0) v).bind fun sum => some (m.insert k sum)

def addAll (prof : Profile) (key : α → κ) (val : α → BitVec w) (m : HashMap κ (BitVec w))
    (xs : List α) : Option (HashMap κ (BitVec w)) :=
  xs.foldlM (fun m x => addEntry prof m (key x) (val x)) m

/-- The sum of the values with a key. -/
def keySum (key : α → κ) (val : α → BitVec w) (k : κ) (xs : List α) : ℕ :=
  (xs.map fun x => if key x = k then (val x).toNat else 0).sum

theorem keySum_cons (k : κ) (x : α) (xs : List α) :
    keySum key val k (x :: xs) =
      (if key x = k then (val x).toNat else 0) + keySum key val k xs := List.sum_cons

theorem lookup_addEntry {m m' : HashMap κ (BitVec w)} {k : κ} {v : BitVec w}
    (h : addEntry prof m k v = some m') (k' : κ) :
    m'.lookup k' = if k = k' then some ((m.lookup k).getD 0 + v) else m.lookup k' := by
  rw [addEntry, Option.bind_eq_some_iff] at h
  obtain ⟨sum, hsum, hm⟩ := h
  rw [← Option.some.inj hm, lookup_insert_eq, Profile.eq_of_add_eq_some hsum]

theorem toNat_lookup_addEntry {m m' : HashMap κ (BitVec w)} {k : κ} {v : BitVec w}
    (h : addEntry prof m k v = some m') (k' : κ) :
    ((m'.lookup k').getD 0).toNat =
      (((m.lookup k').getD 0).toNat + if k = k' then v.toNat else 0) % 2 ^ w := by
  rw [lookup_addEntry h]
  split_ifs with hk
  · rw [← hk, Option.getD_some, BitVec.toNat_add]
  · rw [add_zero, Nat.mod_eq_of_lt (BitVec.isLt _)]

theorem mem_addEntry {m m' : HashMap κ (BitVec w)} {k : κ} {v : BitVec w}
    (h : addEntry prof m k v = some m') (k' : κ) : k' ∈ m' ↔ k = k' ∨ k' ∈ m := by
  rw [← AList.lookup_isSome, ← AList.lookup_isSome, lookup_addEntry h]
  split_ifs with hk <;> simp [hk]

/-- Whatever the build, the entry of a key is the wrapped sum of its values. -/
theorem toNat_lookup_addAll {m m' : HashMap κ (BitVec w)} {xs : List α}
    (h : addAll prof key val m xs = some m') (k : κ) :
    ((m'.lookup k).getD 0).toNat =
      (((m.lookup k).getD 0).toNat + keySum key val k xs) % 2 ^ w := by
  induction xs generalizing m with
  | nil =>
      cases h
      exact (Nat.mod_eq_of_lt (BitVec.isLt _)).symm
  | cons x xs ih =>
      rw [addAll, List.foldlM_cons, Option.bind_eq_bind, Option.bind_eq_some_iff] at h
      obtain ⟨m₁, h₁, h₂⟩ := h
      rw [ih h₂, toNat_lookup_addEntry h₁, Nat.mod_add_mod, keySum_cons, add_assoc]

theorem toNat_lookup_addAll_empty {m : HashMap κ (BitVec w)} {xs : List α}
    (h : addAll prof key val ∅ xs = some m) (k : κ) :
    ((m.lookup k).getD 0).toNat = keySum key val k xs % 2 ^ w := by
  rw [toNat_lookup_addAll h, AList.lookup_empty, Option.getD_none]
  exact congrArg (· % 2 ^ w) (Nat.zero_add _)

theorem mem_addAll {m m' : HashMap κ (BitVec w)} {xs : List α}
    (h : addAll prof key val m xs = some m') (k : κ) : k ∈ m' ↔ k ∈ m ∨ k ∈ xs.map key := by
  induction xs generalizing m with
  | nil =>
      cases h
      simp
  | cons x xs ih =>
      rw [addAll, List.foldlM_cons, Option.bind_eq_bind, Option.bind_eq_some_iff] at h
      obtain ⟨m₁, h₁, h₂⟩ := h
      rw [ih h₂, mem_addEntry h₁, List.map_cons, List.mem_cons]
      tauto

theorem addAll_release (key : α → κ) (val : α → BitVec w) (m : HashMap κ (BitVec w))
    (xs : List α) : ∃ m', addAll .release key val m xs = some m' := by
  induction xs generalizing m with
  | nil => exact ⟨m, rfl⟩
  | cons x xs ih =>
      rw [addAll, List.foldlM_cons]
      exact ih _

theorem keySum_eq_filter (key : α → κ) (val : α → BitVec w) (k : κ) (xs : List α) :
    keySum key val k xs = ((xs.filter fun x => key x = k).map fun x => (val x).toNat).sum := by
  induction xs with
  | nil => rfl
  | cons x xs ih =>
      rw [keySum_cons, ih]
      by_cases hx : key x = k <;> simp [hx]

/-- No sum of the values with a key overflows. -/
def SumsFit (key : α → κ) (val : α → BitVec w) (xs : List α) : Prop :=
  ∀ k, keySum key val k xs < 2 ^ w

end Sums

/-! ## `*entry(k).or_insert(v)` updated in place -/

section Update

variable {key : α → κ} {init : ν} {step : ν → α → Option ν}

def updateAll (key : α → κ) (init : ν) (step : ν → α → Option ν) (m : HashMap κ ν) (xs : List α) :
    Option (HashMap κ ν) :=
  xs.foldlM (fun m x => (step ((m.lookup (key x)).getD init) x).map fun v => m.insert (key x) v) m

theorem updateAll_cons {m m' : HashMap κ ν} {x : α} {xs : List α}
    (h : updateAll key init step m (x :: xs) = some m') :
    ∃ v, step ((m.lookup (key x)).getD init) x = some v ∧
      updateAll key init step (m.insert (key x) v) xs = some m' := by
  rw [updateAll, List.foldlM_cons, Option.bind_eq_bind, Option.bind_eq_some_iff] at h
  obtain ⟨m₁, hm₁, hrest⟩ := h
  obtain ⟨v, hv, rfl⟩ := Option.map_eq_some_iff.1 hm₁
  exact ⟨v, hv, hrest⟩

theorem mem_updateAll {m m' : HashMap κ ν} {xs : List α}
    (h : updateAll key init step m xs = some m') (k : κ) : k ∈ m' ↔ k ∈ m ∨ k ∈ xs.map key := by
  induction xs generalizing m with
  | nil =>
      cases h
      simp
  | cons x xs ih =>
      obtain ⟨v, -, hrest⟩ := updateAll_cons h
      rw [ih hrest, AList.mem_insert, List.map_cons, List.mem_cons]
      tauto

/-- The entry of a key is the fold of the elements with the key. -/
theorem lookup_updateAll {m m' : HashMap κ ν} {xs : List α}
    (h : updateAll key init step m xs = some m') (k : κ) :
    (xs.filter fun x => key x = k).foldlM step ((m.lookup k).getD init) =
      some ((m'.lookup k).getD init) := by
  induction xs generalizing m with
  | nil =>
      cases h
      rfl
  | cons x xs ih =>
      obtain ⟨v, hv, hrest⟩ := updateAll_cons h
      have hnext := ih hrest
      rw [lookup_insert_eq] at hnext
      by_cases hx : key x = k
      · rw [if_pos hx, Option.getD_some] at hnext
        rw [List.filter_cons_of_pos (by simpa using hx), List.foldlM_cons, ← hx, hv]
        rw [hx]
        exact hnext
      · rw [if_neg hx] at hnext
        rwa [List.filter_cons_of_neg (by simpa using hx)]

theorem updateAll_total (hstep : ∀ v x, ∃ v', step v x = some v') (m : HashMap κ ν)
    (xs : List α) : ∃ m', updateAll key init step m xs = some m' := by
  induction xs generalizing m with
  | nil => exact ⟨m, rfl⟩
  | cons x xs ih =>
      obtain ⟨v, hv⟩ := hstep ((m.lookup (key x)).getD init) x
      rw [updateAll, List.foldlM_cons, hv]
      exact ih _

end Update

/-! ## Records indexed by a key of their own -/

/-- `into_values`. -/
def values (m : HashMap κ ν) (ord : IterOrder κ ν) : List ν := (iter m ord).map Sigma.snd

/-- The last record with a key. -/
def latest (key : α → κ) (k : κ) (xs : List α) : Option α := xs.reverse.find? fun x => key x = k

section Latest

variable {key : α → κ} {k : κ} {xs ys : List α} {x : α}

theorem latest_append : latest key k (xs ++ ys) = (latest key k ys).or (latest key k xs) := by
  rw [latest, List.reverse_append, List.find?_append]
  rfl

theorem mem_of_latest (h : latest key k xs = some x) : x ∈ xs ∧ key x = k :=
  ⟨List.mem_reverse.1 (List.mem_of_find?_eq_some h), by simpa using List.find?_some h⟩

theorem latest_isSome_iff : (latest key k xs).isSome ↔ k ∈ xs.map key := by
  rw [latest, List.find?_isSome, List.mem_map]
  simp only [List.mem_reverse, decide_eq_true_eq]

theorem latest_eq_none_iff : latest key k xs = none ↔ k ∉ xs.map key := by
  rw [← latest_isSome_iff, Option.not_isSome_iff_eq_none]

theorem latest_of_nodup (hnodup : (xs.map key).Nodup) (hx : x ∈ xs) :
    latest key (key x) xs = some x := by
  have hsome : (latest key (key x) xs).isSome := latest_isSome_iff.2 (List.mem_map_of_mem hx)
  obtain ⟨y, hy⟩ := Option.isSome_iff_exists.1 hsome
  obtain ⟨hmem, hkey⟩ := mem_of_latest hy
  rw [hy, List.inj_on_of_nodup_map hnodup hmem hx hkey]

/-- A record that is the last of its key in a concatenation is so in its part. -/
theorem exists_latest_of_flatten {parts : List (List α)}
    (h : latest key k parts.flatten = some x) : ∃ p ∈ parts, latest key k p = some x := by
  induction parts with
  | nil => cases h
  | cons p ps ih =>
      rw [List.flatten_cons, latest_append] at h
      cases hps : latest key k ps.flatten with
      | some y =>
          rw [hps] at h
          obtain ⟨q, hq, hqy⟩ := ih (hps.trans h)
          exact ⟨q, List.mem_cons_of_mem p hq, hqy⟩
      | none =>
          rw [hps] at h
          exact ⟨p, List.mem_cons_self, h⟩

end Latest

def indexBy (key : α → κ) (xs : List α) : HashMap κ α := insertAll key id ∅ xs

theorem insertAll_indexBy (key : α → κ) (xs ys : List α) :
    insertAll key id (indexBy key xs) ys = indexBy key (xs ++ ys) :=
  List.foldl_append.symm

theorem lookup_indexBy (key : α → κ) (xs : List α) (k : κ) :
    (indexBy key xs).lookup k = latest key k xs := by
  rw [indexBy, lookup_insertAll, Option.map_id, AList.lookup_empty, Option.or_none]
  rfl

theorem mem_iter_indexBy {key : α → κ} {xs : List α} {ord : IterOrder κ α} {e : Σ _ : κ, α} :
    e ∈ iter (indexBy key xs) ord ↔ latest key e.1 xs = some e.2 := by
  rw [(iter_perm _ _).mem_iff, ← lookup_indexBy]
  exact mem_entries_iff _ _ _

theorem mem_values_indexBy {key : α → κ} {xs : List α} {ord : IterOrder κ α} {x : α} :
    x ∈ values (indexBy key xs) ord ↔ latest key (key x) xs = some x := by
  rw [values, List.mem_map]
  constructor
  · rintro ⟨⟨k, y⟩, he, rfl⟩
    have hlatest := mem_iter_indexBy.1 he
    rwa [(mem_of_latest hlatest).2]
  · intro h
    exact ⟨⟨key x, x⟩, mem_iter_indexBy.2 h, rfl⟩

/-- The records of the index have distinct keys. -/
theorem nodup_values_indexBy (key : α → κ) (xs : List α) (ord : IterOrder κ α) :
    ((values (indexBy key xs) ord).map key).Nodup := by
  have hkeys : (values (indexBy key xs) ord).map key = (iter (indexBy key xs) ord).map Sigma.fst := by
    rw [values, List.map_map]
    apply List.map_congr_left
    intro e he
    exact (mem_of_latest (mem_iter_indexBy.1 he)).2
  rw [hkeys, ((iter_perm _ _).map Sigma.fst).nodup_iff]
  exact (indexBy key xs).nodupKeys

theorem mem_map_values_indexBy {key : α → κ} {xs : List α} {ord : IterOrder κ α} {k : κ} :
    k ∈ (values (indexBy key xs) ord).map key ↔ k ∈ xs.map key := by
  constructor
  · intro h
    obtain ⟨x, hx, rfl⟩ := List.mem_map.1 h
    exact List.mem_map_of_mem (mem_of_latest (mem_values_indexBy.1 hx)).1
  · intro h
    obtain ⟨x, hx⟩ := Option.isSome_iff_exists.1 (latest_isSome_iff.2 h)
    have hk := (mem_of_latest hx).2
    rw [← hk] at hx
    exact List.mem_map.2 ⟨x, mem_values_indexBy.2 hx, hk⟩

/-- Two indexes hold the same records exactly when they agree on every key. -/
theorem values_indexBy_perm_iff {key : α → κ} {xs ys : List α} {ord ord' : IterOrder κ α} :
    (values (indexBy key xs) ord).Perm (values (indexBy key ys) ord') ↔
      ∀ k, latest key k xs = latest key k ys := by
  constructor
  · intro hperm k
    apply Option.ext
    intro x
    constructor
    · intro hx
      have hk := (mem_of_latest hx).2
      rw [← hk] at hx ⊢
      exact mem_values_indexBy.1 (hperm.mem_iff.1 (mem_values_indexBy.2 hx))
    · intro hx
      have hk := (mem_of_latest hx).2
      rw [← hk] at hx ⊢
      exact mem_values_indexBy.1 (hperm.mem_iff.2 (mem_values_indexBy.2 hx))
  · intro h
    apply (List.perm_ext_iff_of_nodup (nodup_values_indexBy key xs ord).of_map
      (nodup_values_indexBy key ys ord').of_map).2
    intro x
    rw [mem_values_indexBy, mem_values_indexBy, h]

end HashMap

end TbManager
