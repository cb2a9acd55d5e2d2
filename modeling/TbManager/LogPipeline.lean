import TbManager.Broadcast
import TbManager.Runs

/-!
# The way of a log line

Two tasks read the output of the child and send it over the log channel of the
manager; a forwarder passes the entries on to the channel of the service; each
`StreamLogs` call reads that channel from the moment of its subscription. Both
channels drop their oldest entries for a receiver that is slow. A stream says how
many it missed; the forwarder stops.
-/

namespace TbManager

open Broadcast

inductive LogLevel where
  | info
  | warn
  | error
  deriving DecidableEq, Repr

def LogLevel.proto : LogLevel → ℕ
  | info => 1
  | warn => 2
  | error => 3

structure LogEntry where
  timestamp : String
  level : LogLevel
  message : String
  deriving DecidableEq, Repr

structure ProtoLogEntry where
  timestamp : String
  level : ℕ
  message : String
  deriving DecidableEq, Repr

def LogEntry.proto (e : LogEntry) : ProtoLogEntry := ⟨e.timestamp, e.level.proto, e.message⟩

def skippedNotice (now : String) (n : ℕ) : ProtoLogEntry :=
  ⟨now, LogLevel.warn.proto, "... skipped " ++ toString n ++ " log entries (slow consumer)"⟩

inductive LogSource where
  | stdout
  | stderr
  deriving DecidableEq, Repr

def LogSource.level : LogSource → LogLevel
  | stdout => .info
  | stderr => .error

inductive ReaderStage where
  /-- At the head of the loop, before the look at the shutdown flag. -/
  | checking
  /-- In `next_line`. -/
  | reading
  | ended
  deriving DecidableEq, Repr

structure LogStream where
  /-- The number of entries that were sent before the subscription. -/
  subscribedAt : ℕ
  position : ℕ
  yielded : List ProtoLogEntry
  ended : Bool
  deriving DecidableEq, Repr

def LogStream.take (stream : LogStream) (now : String) (position : ℕ) :
    Received ProtoLogEntry → LogStream
  | .entry e => { stream with position := position, yielded := stream.yielded ++ [e] }
  | .lagged n =>
    { stream with position := position, yielded := stream.yielded ++ [skippedNotice now n] }
  | .closed => { stream with position := position, ended := true }

structure LogPipeline where
  shutdown : Bool
  readers : LogSource → ReaderStage
  /-- The manager still owns its sender. -/
  managerTx : Bool
  managerSent : List LogEntry
  /-- The position of the forwarder while it runs. -/
  forwarder : Option ℕ
  /-- The service still owns its sender. -/
  serviceTx : Bool
  protoSent : List ProtoLogEntry
  streams : List LogStream

inductive LogAction where
  | shutdown
  | check (source : LogSource)
  | line (source : LogSource) (now message : String)
  /-- `next_line` returns `None` or an error. -/
  | noLine (source : LogSource)
  | dropManager
  | forward
  | subscribe
  | poll (i : ℕ) (now : String)
  | dropService
  deriving DecidableEq, Repr

namespace LogPipeline

/-- Both channels hold 1024 entries. -/
def capacity : ℕ := 1024

def initial : LogPipeline where
  shutdown := false
  readers := fun _ => .checking
  managerTx := true
  managerSent := []
  forwarder := some 0
  serviceTx := true
  protoSent := []
  streams := []

def setReader (s : LogPipeline) (source : LogSource) (stage : ReaderStage) : LogPipeline :=
  { s with readers := Function.update s.readers source stage }

def managerClosed (s : LogPipeline) : Bool :=
  !s.managerTx && s.readers .stdout = .ended && s.readers .stderr = .ended

def protoClosed (s : LogPipeline) : Bool := !s.serviceTx && s.forwarder = none

def step (s : LogPipeline) : LogAction → Option LogPipeline
  | .shutdown => some { s with shutdown := true }
  | .check source =>
    if s.readers source = .checking then
      some (s.setReader source (if s.shutdown then .ended else .reading))
    else none
  | .line source now message =>
    if s.readers source = .reading then
      some { s.setReader source .checking with
        managerSent := s.managerSent ++ [⟨now, source.level, message⟩] }
    else none
  | .noLine source =>
    if s.readers source = .reading then some (s.setReader source .ended) else none
  | .dropManager => some { s with managerTx := false }
  | .forward => do
    let position ← s.forwarder
    match ← recv capacity s.managerSent s.managerClosed position with
    | (.entry e, position') =>
      some { s with forwarder := some position', protoSent := s.protoSent ++ [e.proto] }
    -- `Err(_) => break`: behind as well as closed
    | (_, _) => some { s with forwarder := none }
  | .subscribe =>
    if s.serviceTx then
      some { s with
        streams := s.streams ++ [⟨s.protoSent.length, s.protoSent.length, [], false⟩] }
    else none
  | .poll i now => do
    let stream ← s.streams[i]?
    if stream.ended then none
    else
      let (received, position) ← recv capacity s.protoSent s.protoClosed stream.position
      some { s with streams := s.streams.set i (stream.take now position received) }
  | .dropService => some { s with serviceTx := false }

/-! ## What a step does -/

/-- What a stream has yielded for what it was told. -/
inductive Shows : List (Received ProtoLogEntry) → List ProtoLogEntry → Prop
  | nil : Shows [] []
  | entry {told : List (Received ProtoLogEntry)} {shown : List ProtoLogEntry}
      (h : Shows told shown) (e : ProtoLogEntry) : Shows (told ++ [.entry e]) (shown ++ [e])
  | lagged {told : List (Received ProtoLogEntry)} {shown : List ProtoLogEntry}
      (h : Shows told shown) (n : ℕ) (now : String) :
      Shows (told ++ [.lagged n]) (shown ++ [skippedNotice now n])
  | closed {told : List (Received ProtoLogEntry)} {shown : List ProtoLogEntry}
      (h : Shows told shown) : Shows (told ++ [.closed]) shown

/-- The states after an action; `Same` steps touch neither the channels nor the streams. -/
inductive Moves (s : LogPipeline) : LogAction → LogPipeline → Prop
  | same {a : LogAction} {s' : LogPipeline} (hsent : s'.managerSent = s.managerSent)
      (hforwarder : s'.forwarder = s.forwarder) (hproto : s'.protoSent = s.protoSent)
      (hstreams : s'.streams = s.streams)
      (hclosed : s.managerClosed = true → s'.managerClosed = true)
      (hforward : a ≠ .forward) : Moves s a s'
  | printed {source : LogSource} {now message : String} (hopen : s.managerClosed = false) :
      Moves s (.line source now message)
        { s.setReader source .checking with
          managerSent := s.managerSent ++ [⟨now, source.level, message⟩] }
  | forwarded {position position' : ℕ} {e : LogEntry} (hrun : s.forwarder = some position)
      (hread : Receipt capacity s.managerSent s.managerClosed position (.entry e) position') :
      Moves s .forward
        { s with forwarder := some position', protoSent := s.protoSent ++ [e.proto] }
  | stopped {position position' : ℕ} {received : Received LogEntry}
      (hrun : s.forwarder = some position)
      (hread : Receipt capacity s.managerSent s.managerClosed position received position')
      (hend : ∀ e, received ≠ .entry e) : Moves s .forward { s with forwarder := none }
  | subscribed : Moves s .subscribe
      { s with streams := s.streams ++ [⟨s.protoSent.length, s.protoSent.length, [], false⟩] }
  | polled {i : ℕ} {now : String} {stream : LogStream} {received : Received ProtoLogEntry}
      {position : ℕ} (hi : s.streams[i]? = some stream)
      (hread : Receipt capacity s.protoSent s.protoClosed stream.position received
        position) :
      Moves s (.poll i now)
        { s with streams := s.streams.set i (stream.take now position received) }

variable {s s' : LogPipeline} {a : LogAction}

theorem managerClosed_iff : s.managerClosed = true ↔
    s.managerTx = false ∧ ∀ source, s.readers source = .ended := by
  rw [managerClosed]
  constructor
  · intro h
    simp only [Bool.and_eq_true, Bool.not_eq_true', decide_eq_true_eq] at h
    refine ⟨h.1.1, fun source => ?_⟩
    cases source with
    | stdout => exact h.1.2
    | stderr => exact h.2
  · rintro ⟨htx, hended⟩
    simp [htx, hended]

theorem managerClosed_eq_false (source : LogSource) (h : s.readers source ≠ .ended) :
    s.managerClosed = false := by
  rw [Bool.eq_false_iff]
  exact fun hclosed => h ((managerClosed_iff.1 hclosed).2 source)

theorem moves_setReader {source : LogSource} (h : s.readers source ≠ .ended)
    (stage : ReaderStage) (ha : a ≠ .forward) : Moves s a (s.setReader source stage) := by
  refine .same rfl rfl rfl rfl (fun hclosed => ?_) ha
  rw [managerClosed_eq_false source h] at hclosed
  cases hclosed

theorem step_moves (h : step s a = some s') : Moves s a s' := by
  cases a with
  | shutdown =>
      cases h
      exact .same rfl rfl rfl rfl id (by simp)
  | check source =>
      by_cases hstage : s.readers source = .checking
      · rw [step, if_pos hstage, Option.some.injEq] at h
        subst h
        exact moves_setReader (by rw [hstage]; simp) _ (by simp)
      · rw [step, if_neg hstage] at h
        cases h
  | line source now message =>
      rw [step] at h
      split_ifs at h with hstage
      cases h
      exact .printed (managerClosed_eq_false source (by rw [hstage]; simp))
  | noLine source =>
      rw [step] at h
      split_ifs at h with hstage
      cases h
      exact moves_setReader (by rw [hstage]; simp) _ (by simp)
  | dropManager =>
      cases h
      refine .same rfl rfl rfl rfl (fun hclosed => ?_) (by simp)
      exact managerClosed_iff.2 ⟨rfl, (managerClosed_iff.1 hclosed).2⟩
  | forward =>
      simp only [step, Option.bind_eq_bind, Option.bind_eq_some_iff] at h
      obtain ⟨position, hrun, ⟨received, position'⟩, hrecv, hs'⟩ := h
      have hread := recv_receipt hrecv
      cases received with
      | entry e =>
          cases hs'
          exact .forwarded hrun hread
      | lagged n =>
          cases hs'
          exact .stopped hrun hread (by simp)
      | closed =>
          cases hs'
          exact .stopped hrun hread (by simp)
  | subscribe =>
      rw [step] at h
      split_ifs at h
      cases h
      exact .subscribed
  | poll i now =>
      simp only [step, Option.bind_eq_bind, Option.bind_eq_some_iff] at h
      obtain ⟨stream, hi, hs'⟩ := h
      split_ifs at hs' with hended
      rw [Option.bind_eq_some_iff] at hs'
      obtain ⟨⟨received, position⟩, hrecv, hs'⟩ := hs'
      cases hs'
      exact .polled hi (recv_receipt hrecv)
  | dropService =>
      cases h
      exact .same rfl rfl rfl rfl id (by simp)

/-! ## What the streams show -/

/-- A stream has yielded what accounts for the entries between its subscription and its
position. -/
structure Accounts (sent : List ProtoLogEntry) (stream : LogStream) : Prop where
  subscribed : stream.subscribedAt ≤ stream.position
  position : stream.position ≤ sent.length
  told : ∃ told, Shows told stream.yielded ∧
    Explains told (between sent stream.subscribedAt stream.position)

structure Inv (s : LogPipeline) : Prop where
  forwarder : ∀ position, s.forwarder = some position →
    position = s.protoSent.length ∧ position ≤ s.managerSent.length
  /-- What reached the service is the beginning of what was printed. -/
  forwarded : s.protoSent <+: s.managerSent.map LogEntry.proto
  streams : ∀ stream ∈ s.streams, Accounts s.protoSent stream

theorem Accounts.grow {sent : List ProtoLogEntry} {stream : LogStream}
    (h : Accounts sent stream) (more : List ProtoLogEntry) : Accounts (sent ++ more) stream where
  subscribed := h.subscribed
  position := by
    rw [List.length_append]
    exact Nat.le_add_right_of_le h.position
  told := by
    rw [between_append sent more h.position]
    exact h.told

theorem Accounts.read {sent : List ProtoLogEntry} {stream : LogStream}
    (h : Accounts sent stream) {closed : Bool} {received : Received ProtoLogEntry} {position : ℕ}
    (hread : Receipt capacity sent closed stream.position received position) (now : String) :
    Accounts sent (stream.take now position received) := by
  obtain ⟨hforth, hwithin⟩ := hread.position_le h.position
  obtain ⟨told, hshows, hexplains⟩ := h.told
  have hmore := hread.explains hexplains h.subscribed h.position
  cases received with
  | entry e =>
      exact ⟨h.subscribed.trans hforth, hwithin, _, hshows.entry e, hmore⟩
  | lagged n =>
      exact ⟨h.subscribed.trans hforth, hwithin, _, hshows.lagged n now, hmore⟩
  | closed =>
      exact ⟨h.subscribed.trans hforth, hwithin, _, hshows.closed, hmore⟩

theorem initial_inv : initial.Inv where
  forwarder := by
    rintro position h
    cases h
    exact ⟨rfl, le_rfl⟩
  forwarded := List.prefix_rfl
  streams := fun _ h => nomatch h

theorem moves_inv (hi : s.Inv) (h : Moves s a s') : s'.Inv := by
  cases h with
  | same hsent hforwarder hproto hstreams =>
      constructor
      · rw [hforwarder, hproto, hsent]
        exact hi.forwarder
      · rw [hproto, hsent]
        exact hi.forwarded
      · rw [hstreams, hproto]
        exact hi.streams
  | printed =>
      constructor
      · intro position hposition
        obtain ⟨heq, hle⟩ := hi.forwarder position hposition
        refine ⟨heq, ?_⟩
        rw [List.length_append]
        exact Nat.le_add_right_of_le hle
      · rw [List.map_append]
        exact hi.forwarded.trans (List.prefix_append _ _)
      · exact hi.streams
  | @forwarded position position' e hrun hread =>
      obtain ⟨rfl, hle⟩ := hi.forwarder position hrun
      cases hread with
      | entry _ ha =>
          obtain ⟨hlt, hentry⟩ := List.getElem?_eq_some_iff.1 ha
          constructor
          · rintro position hposition
            cases hposition
            rw [List.length_append, List.length_singleton]
            exact ⟨rfl, hlt⟩
          · have htake := List.prefix_iff_eq_take.1 hi.forwarded
            have hnext : s.protoSent ++ [e.proto] =
                (s.managerSent.map LogEntry.proto).take (s.protoSent.length + 1) := by
              rw [List.take_succ_eq_append_getElem (by rw [List.length_map]; exact hlt), ← htake,
                List.getElem_map, hentry]
            rw [hnext]
            exact List.take_prefix _ _
          · exact fun stream hstream => (hi.streams stream hstream).grow _
  | stopped =>
      constructor
      · rintro position hposition
        cases hposition
      · exact hi.forwarded
      · exact hi.streams
  | subscribed =>
      constructor
      · exact hi.forwarder
      · exact hi.forwarded
      · intro stream hstream
        rcases List.mem_append.1 hstream with hold | hnew
        · exact hi.streams stream hold
        · rw [List.mem_singleton.1 hnew]
          refine ⟨le_rfl, le_rfl, [], .nil, ?_⟩
          rw [between_self]
          exact .nil
  | @polled i now stream received position hstream hread =>
      constructor
      · exact hi.forwarder
      · exact hi.forwarded
      · intro stream' hmem
        rcases List.mem_or_eq_of_mem_set hmem with hold | rfl
        · exact hi.streams stream' hold
        · exact (hi.streams stream (List.mem_of_getElem? hstream)).read hread now

theorem run_inv {actions : List LogAction} (hrun : runFrom step initial actions = some s) :
    s.Inv :=
  invariant_run (fun _ _ _ hi h => moves_inv hi (step_moves h)) initial_inv hrun

/-- Entries still reach the service, or there is none that did not. -/
def Delivering (s : LogPipeline) : Prop :=
  s.forwarder ≠ none ∨ (s.managerClosed = true ∧ s.protoSent.length = s.managerSent.length)

/-- The forwarder is not behind by more than the channel holds when it reads. -/
def KeepsUp (s : LogPipeline) (a : LogAction) : Prop :=
  a = .forward → ∀ position, s.forwarder = some position →
    s.managerSent.length ≤ position + capacity

theorem keepsUp_of_ne (h : a ≠ .forward) : KeepsUp s a := fun ha => absurd ha h

theorem delivering_iff (hi : s.Inv) (hd : s.Delivering) (h : Moves s a s') :
    s'.Delivering ↔ KeepsUp s a := by
  cases h with
  | same hsent hforwarder hproto _ hclosed hforward =>
      refine iff_of_true ?_ (keepsUp_of_ne hforward)
      rw [Delivering, hsent, hforwarder, hproto]
      exact hd.imp_right fun hall => ⟨hclosed hall.1, hall.2⟩
  | printed hopen =>
      refine iff_of_true (.inl ?_) (keepsUp_of_ne (by simp))
      rcases hd with hrun | ⟨hclosed, _⟩
      · exact hrun
      · rw [hopen] at hclosed
        cases hclosed
  | forwarded hrun hread =>
      refine iff_of_true (.inl (by simp)) fun _ position hposition => ?_
      rw [hrun, Option.some.injEq] at hposition
      cases hread with
      | entry hkeeps _ => rwa [← hposition]
  | @stopped position _ _ hrun hread hend =>
      obtain ⟨heq, hle⟩ := hi.forwarder position hrun
      cases hread with
      | lagged hbehind =>
          refine iff_of_false ?_ fun hkeeps => ?_
          · rintro (hrun' | ⟨_, hall⟩)
            · exact hrun' rfl
            · have hall : s.protoSent.length = s.managerSent.length := hall
              omega
          · have := hkeeps rfl position hrun
            omega
      | entry _ _ => exact absurd rfl (hend _)
      | closed hkeeps hnone hclosed =>
          refine iff_of_true (.inr ⟨hclosed, ?_⟩) fun _ position' hposition => ?_
          · show s.protoSent.length = s.managerSent.length
            omega
          · rw [hrun, Option.some.injEq] at hposition
            rwa [← hposition]
  | subscribed => exact iff_of_true hd (keepsUp_of_ne (by simp))
  | polled => exact iff_of_true hd (keepsUp_of_ne (by simp))

/-- The entries reach the service throughout a run exactly when the forwarder never reads while
more than 1024 entries are waiting for it. -/
theorem forwards_iff_keepsUp {actions : List LogAction}
    (hrun : runFrom step initial actions = some s) :
    Throughout step Delivering initial actions ↔ StepsMeet step KeepsUp initial actions :=
  throughout_iff_stepsMeet (fun _ _ _ hi h => moves_inv hi (step_moves h))
    (fun _ _ _ hi hd h => delivering_iff hi hd (step_moves h)) initial_inv
    (.inl (by simp [initial])) hrun

/-- The child prints some lines, and nothing reads them. -/
def lines : ℕ → List LogAction
  | 0 => []
  | n + 1 => .check .stdout :: .line .stdout "12:00" "ready" :: lines n

def unread (n : ℕ) : LogPipeline :=
  { initial with managerSent := List.replicate n ⟨"12:00", .info, "ready"⟩ }

theorem runFrom_lines (m n : ℕ) : runFrom step (unread m) (lines n) = some (unread (m + n)) := by
  induction n generalizing m with
  | zero => rfl
  | succ n ih =>
      have hline : step ((unread m).setReader .stdout .reading) (.line .stdout "12:00" "ready") =
          some (unread (m + 1)) := by
        rw [step, if_pos (by simp [setReader]), Option.some.injEq]
        simp only [unread, setReader, initial, Function.update_idem, Function.update_eq_self,
          List.replicate_succ']
        rfl
      have hrest := ih (m + 1)
      rw [Nat.add_right_comm, Nat.add_assoc] at hrest
      have hcheck : step (unread m) (.check .stdout) =
          some ((unread m).setReader .stdout .reading) := rfl
      rw [lines, runFrom, hcheck, Option.bind_some, runFrom, hline, Option.bind_some]
      exact hrest

/-- A forwarder that has read nothing stops when more is unread than the channel holds. -/
theorem step_forward_unread {n : ℕ} (hbehind : capacity < n) :
    step (unread n) .forward = some { unread n with forwarder := none } := by
  have hrecv : recv capacity (unread n).managerSent false 0 =
      some (.lagged (n - capacity), n - capacity) := by
    rw [recv, unread, List.length_replicate, Nat.zero_add, if_pos hbehind, Nat.sub_zero]
  change (recv capacity (unread n).managerSent false 0).bind _ = _
  rw [hrecv]
  rfl

/-- The forwarder comes to the channel when one line more than it holds was printed. -/
def lagged : List LogAction := lines (capacity + 1) ++ [.forward]

def laggedEnd : LogPipeline := { unread (capacity + 1) with forwarder := none }

theorem runFrom_lagged : runFrom step initial lagged = some laggedEnd := by
  have hlines := runFrom_lines 0 (capacity + 1)
  rw [Nat.zero_add] at hlines
  rw [lagged, runFrom_append, show initial = unread 0 from rfl, hlines, Option.bind_some,
    runFrom_singleton, step_forward_unread (Nat.lt_succ_self capacity), laggedEnd]

theorem forwards_iff_keepsUp_lagged :
    runFrom step initial lagged = some laggedEnd ∧
      (Throughout step Delivering initial lagged ↔ StepsMeet step KeepsUp initial lagged) ∧
      ¬ Throughout step Delivering initial lagged := by
  refine ⟨runFrom_lagged, forwards_iff_keepsUp runFrom_lagged, fun hall => ?_⟩
  rcases hall lagged [] laggedEnd (List.append_nil _).symm runFrom_lagged with hrun | ⟨hclosed, _⟩
  · exact hrun rfl
  · exact Bool.noConfusion hclosed

/-- What holds after the forwarder has stopped with some entries forwarded and some streams
subscribed: the streams from then on stay where they were subscribed. -/
structure Silent (sent : List ProtoLogEntry) (n : ℕ) (s : LogPipeline) : Prop where
  forwarder : s.forwarder = none
  protoSent : s.protoSent = sent
  streams : n ≤ s.streams.length
  later : ∀ i stream, n ≤ i → s.streams[i]? = some stream →
    stream.position = sent.length ∧ stream.yielded = []

theorem moves_silent {sent : List ProtoLogEntry} {n : ℕ} (hi : Silent sent n s)
    (h : Moves s a s') : Silent sent n s' := by
  cases h with
  | same hsent hforwarder hproto hstreams =>
      constructor
      · rw [hforwarder, hi.forwarder]
      · rw [hproto, hi.protoSent]
      · rw [hstreams]
        exact hi.streams
      · rw [hstreams]
        exact hi.later
  | printed => exact ⟨hi.forwarder, hi.protoSent, hi.streams, hi.later⟩
  | forwarded hrun =>
      rw [hi.forwarder] at hrun
      cases hrun
  | stopped hrun =>
      rw [hi.forwarder] at hrun
      cases hrun
  | subscribed =>
      refine ⟨hi.forwarder, hi.protoSent, ?_, fun i stream hn hget => ?_⟩
      · rw [List.length_append]
        exact Nat.le_add_right_of_le hi.streams
      · rw [List.getElem?_append] at hget
        split_ifs at hget with hold
        · exact hi.later i stream hn hget
        · rw [List.getElem?_singleton] at hget
          split_ifs at hget
          cases hget
          exact ⟨congrArg List.length hi.protoSent, rfl⟩
  | @polled j now stream received position hj hread =>
      refine ⟨hi.forwarder, hi.protoSent, ?_, fun i stream' hn hget => ?_⟩
      · rw [List.length_set]
        exact hi.streams
      · rw [List.getElem?_set] at hget
        split_ifs at hget with hij hlt
        · subst hij
          obtain ⟨hposition, hyielded⟩ := hi.later j stream hn hj
          rw [hi.protoSent, hposition] at hread
          cases hget
          -- at the end of what was sent there is only the end of the channel to read
          cases hread with
          | lagged hbehind => omega
          | entry _ ha =>
              rw [List.getElem?_eq_none le_rfl] at ha
              cases ha
          | closed => exact ⟨rfl, hyielded⟩
        · exact hi.later i stream' hn hget

/-- Once the forwarder has stopped, a stream that subscribes later shows nothing, whatever the
child prints. -/
theorem silent_after_stop {actions : List LogAction} (hstop : s.forwarder = none)
    (hrun : runFrom step s actions = some s') {i : ℕ} {stream : LogStream}
    (hlater : s.streams.length ≤ i) (hi : s'.streams[i]? = some stream) : stream.yielded = [] := by
  have hsilent : Silent s.protoSent s.streams.length s := by
    refine ⟨hstop, rfl, le_rfl, fun j stream hj hget => ?_⟩
    rw [List.getElem?_eq_none hj] at hget
    cases hget
  have hend := invariant_run (fun _ _ _ hi h => moves_silent hi (step_moves h)) hsilent hrun
  exact (hend.later i stream hlater hi).2

/-- A line that is printed after the forwarder has stopped, with a stream that subscribed before. -/
theorem silent_after_stop_lagged :
    runFrom step initial lagged = some laggedEnd ∧
      ∃ s' stream, runFrom step laggedEnd
          [.subscribe, .check .stdout, .line .stdout "12:01" "ready"] = some s' ∧
        s'.streams[0]? = some stream ∧ stream.yielded = [] :=
  have hrun : runFrom step laggedEnd
      [.subscribe, .check .stdout, .line .stdout "12:01" "ready"] = some _ := rfl
  ⟨runFrom_lagged, _, _, hrun, rfl, silent_after_stop rfl hrun (Nat.zero_le 0) rfl⟩

end LogPipeline

end TbManager
