import Mathlib

/-!
# A broadcast channel that drops the oldest

A channel keeps the last `capacity` items that were sent. A receiver reads from a
position of its own; one that has fallen behind by more than the capacity is told
how many items it has missed and goes on at the oldest item kept. What a receiver
has been told explains, in order, everything that was sent since it subscribed.
-/

namespace TbManager.Broadcast

variable {α : Type*}

inductive Received (α : Type*) where
  | entry (a : α)
  | lagged (missed : ℕ)
  | closed
  deriving DecidableEq, Repr

/-- One reading at a position: what is received and the position afterwards. No value is a
receiver that waits. -/
def recv (capacity : ℕ) (sent : List α) (closed : Bool) (position : ℕ) :
    Option (Received α × ℕ) :=
  if position + capacity < sent.length then
    some (.lagged (sent.length - capacity - position), sent.length - capacity)
  else
    match sent[position]? with
    | some a => some (.entry a, position + 1)
    | none => if closed then some (.closed, position) else none

/-- The readings so far account for some items, in the order they were sent. -/
inductive Explains : List (Received α) → List α → Prop
  | nil : Explains [] []
  | entry {told : List (Received α)} {items : List α} (h : Explains told items) (a : α) :
      Explains (told ++ [.entry a]) (items ++ [a])
  | lagged {told : List (Received α)} {items missed : List α} (h : Explains told items)
      (hmissed : missed ≠ []) : Explains (told ++ [.lagged missed.length]) (items ++ missed)
  | closed {told : List (Received α)} {items : List α} (h : Explains told items) :
      Explains (told ++ [.closed]) items

def between (sent : List α) (start position : ℕ) : List α := (sent.take position).drop start

section

variable {capacity position position' start : ℕ} {sent : List α} {closed : Bool}
  {received : Received α}

theorem between_self (sent : List α) (start : ℕ) : between sent start start = [] := by
  rw [between, List.drop_eq_nil_iff, List.length_take]
  exact Nat.min_le_left _ _

theorem between_append (sent more : List α) {start position : ℕ} (h : position ≤ sent.length) :
    between (sent ++ more) start position = between sent start position := by
  rw [between, List.take_append_of_le_length h]
  rfl

theorem between_split (sent : List α) {start position position' : ℕ} (h : start ≤ position)
    (h' : position ≤ position') :
    between sent start position' = between sent start position ++
      between sent position position' := by
  unfold between
  have htake : sent.take position' = sent.take position ++ (sent.take position').drop position := by
    conv_lhs => rw [← List.take_append_drop position (sent.take position'), List.take_take,
      Nat.min_eq_left h']
  by_cases hlen : position ≤ sent.length
  · rw [htake, List.drop_append_of_le_length (by rw [List.length_take]; omega), ← htake]
  · rw [List.take_of_length_le (by omega), List.take_of_length_le (by omega)]
    have hdrop : sent.drop position = [] := List.drop_eq_nil_iff.2 (by omega)
    rw [hdrop, List.append_nil]

/-- What a reading can be. -/
inductive Receipt (capacity : ℕ) (sent : List α) (closed : Bool) (position : ℕ) :
    Received α → ℕ → Prop
  | lagged (hbehind : position + capacity < sent.length) :
      Receipt capacity sent closed position (.lagged (sent.length - capacity - position))
        (sent.length - capacity)
  | entry {a : α} (hkeeps : sent.length ≤ position + capacity) (ha : sent[position]? = some a) :
      Receipt capacity sent closed position (.entry a) (position + 1)
  | closed (hkeeps : sent.length ≤ position + capacity) (hnone : sent.length ≤ position)
      (hclosed : closed = true) : Receipt capacity sent closed position .closed position

theorem recv_receipt (h : recv capacity sent closed position = some (received, position')) :
    Receipt capacity sent closed position received position' := by
  unfold recv at h
  by_cases hbehind : position + capacity < sent.length
  · rw [if_pos hbehind] at h
    cases h
    exact .lagged hbehind
  · rw [if_neg hbehind] at h
    have hkeeps := not_lt.1 hbehind
    cases ha : sent[position]? with
    | some a =>
        rw [ha] at h
        cases h
        exact .entry hkeeps ha
    | none =>
        rw [ha] at h
        cases closed with
        | false => cases h
        | true =>
            cases h
            exact .closed hkeeps (List.getElem?_eq_none_iff.1 ha) rfl

theorem Receipt.position_le (h : Receipt capacity sent closed position received position')
    (hle : position ≤ sent.length) : position ≤ position' ∧ position' ≤ sent.length := by
  cases h with
  | lagged hbehind => omega
  | entry _ ha =>
      have hlt := (List.getElem?_eq_some_iff.1 ha).1
      omega
  | closed => omega

theorem Receipt.explains (h : Receipt capacity sent closed position received position')
    {told : List (Received α)} (htold : Explains told (between sent start position))
    (hstart : start ≤ position) (hle : position ≤ sent.length) :
    Explains (told ++ [received]) (between sent start position') := by
  rw [between_split sent hstart (h.position_le hle).1]
  cases h with
  | lagged hbehind =>
      have hlength : (between sent position (sent.length - capacity)).length =
          sent.length - capacity - position := by
        rw [between, List.length_drop, List.length_take]
        omega
      have hmissed : between sent position (sent.length - capacity) ≠ [] := by
        rw [← List.length_pos_iff, hlength]
        omega
      rw [← hlength]
      exact htold.lagged hmissed
  | entry _ ha =>
      obtain ⟨hlt, rfl⟩ := List.getElem?_eq_some_iff.1 ha
      have hone : between sent position (position + 1) = [sent[position]] := by
        rw [between, List.take_succ_eq_append_getElem hlt,
          List.drop_append_of_le_length (by rw [List.length_take]; omega),
          List.drop_eq_nil_iff.2 (by rw [List.length_take]; omega), List.nil_append]
      rw [hone]
      exact htold.entry _
  | closed =>
      rw [between_self, List.append_nil]
      exact htold.closed

end

end TbManager.Broadcast
