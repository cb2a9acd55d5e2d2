import TbManager.ClientReply
import TbManager.Runs
import TbManager.SeparateHeap

/-!
# What the client owns

A request leaves three allocations behind a raw pointer: the callback with the sender
of its channel, the buffer of its events, and the packet that points to both. The
completion takes them back, a message that is dropped frees them, and closing the
client frees the client. Any number of requests is under way at once; the cluster
completes them in any order, and a future may be dropped at any time. An access
through a pointer to nothing, or a buffer that is freed with another length than it
was allocated with, is undefined behaviour.
-/

namespace TbManager

inductive Operation where
  | createAccounts
  | createTransfers
  | lookupAccounts
  | lookupTransfers
  | getAccountTransfers
  | getAccountBalances
  | queryAccounts
  | queryTransfers
  deriving DecidableEq, Repr

def Operation.eventSize : Operation → ℕ
  | createAccounts | createTransfers => 128
  | lookupAccounts | lookupTransfers => 16
  | getAccountTransfers | getAccountBalances => 128
  | queryAccounts | queryTransfers => 64

theorem Operation.eventSize_pos (op : Operation) : 0 < op.eventSize := by
  cases op <;> decide

structure RawPacket where
  userData : Option ℕ
  data : Option ℕ
  dataSize : U32
  status : U8
  deriving DecidableEq, Repr

inductive Block where
  | client
  | packet (p : RawPacket)
  /-- The closure that `create_packet` makes, with the number of its channel. -/
  | callback (op : Operation) (tx : ℕ)
  /-- The buffer of a vector of events. -/
  | buffer (op : Operation) (count : ℕ)
  deriving DecidableEq, Repr

/-- What the channel carries: the box of the packet, the result and the vector of the events, made
of a pointer and a length that is its capacity too. -/
structure Message where
  packet : ℕ
  events : ℕ
  length : ℕ
  op : Operation
  result : List U8
  deriving DecidableEq, Repr

inductive ChannelStage where
  | empty
  | full (m : Message)
  /-- The message has been read or dropped. -/
  | taken
  deriving DecidableEq, Repr

structure RequestCall where
  op : Operation
  count : ℕ
  callbackAt : ℕ
  eventsAt : ℕ
  packetAt : ℕ
  channel : ChannelStage
  /-- The future is neither finished nor dropped. -/
  receiver : Bool
  /-- What the cluster has answered. -/
  answer : Option CompletionMessage
  /-- What the future has read. -/
  returned : Option CompletionMessage
  deriving DecidableEq, Repr

structure ClientMemory where
  heap : Heap Block
  /-- The client, unless it is closed. -/
  client : Option ℕ
  calls : List RequestCall
  /-- Undefined behaviour. -/
  faulted : Bool

inductive ClientAction where
  | submit (op : Operation) (count callbackAt eventsAt packetAt : ℕ)
  /-- The cluster completes a call that it has not completed. -/
  | complete (k : ℕ) (answer : CompletionMessage)
  | poll (k : ℕ)
  | dropFuture (k : ℕ)
  | close
  deriving DecidableEq, Repr

namespace ClientMemory

def initial (at_ : ℕ) : ClientMemory := ⟨Heap.empty.put at_ .client, some at_, [], false⟩

def alloc (h : Heap Block) (a : ℕ) (b : Block) : Option (Heap Block) :=
  if (h a).isSome then none else some (h.put a b)

/-- `events.to_vec()`: an empty vector has no buffer. -/
def allocEvents (h : Heap Block) (a : ℕ) (op : Operation) (count : ℕ) : Option (Heap Block) :=
  if count = 0 then some h else alloc h a (.buffer op count)

def createPacket (h : Heap Block) (tx : ℕ) (op : Operation)
    (count callbackAt eventsAt packetAt : ℕ) : Option (Heap Block) := do
  let h ← alloc h callbackAt (.callback op tx)
  let h ← allocEvents h eventsAt op count
  alloc h packetAt (.packet ⟨some callbackAt, some eventsAt,
    BitVec.ofNat 32 (op.eventSize * count), 0⟩)

/-- The end of a vector; one without capacity has no buffer. -/
def dropEvents (h : Heap Block) (a length : ℕ) (op : Operation) : Option (Heap Block) :=
  if length = 0 then some h
  else if h a = some (.buffer op length) then some (h.release a) else none

def dropMessage (h : Heap Block) (m : Message) : Option (Heap Block) :=
  match h m.packet with
  | some (.packet _) => dropEvents (h.release m.packet) m.events m.length m.op
  | _ => none

/-- The part of `on_completion` and of the callback before the message is sent: the heap, the
number of the channel and the message. -/
def takeBack (h : Heap Block) (packetAt : ℕ) (result : List U8) :
    Option (Heap Block × ℕ × Message) :=
  match h packetAt with
  | some (.packet p) =>
    match p.userData, p.data with
    | some callbackAt, some eventsAt =>
      match h callbackAt with
      | some (.callback op tx) =>
        some ((h.put packetAt (.packet { p with userData := none, data := none })).release
          callbackAt, tx, ⟨packetAt, eventsAt, p.dataSize.toNat / op.eventSize, op, result⟩)
      | _ => none
    | _, _ => none
  | _ => none

def writeStatus (h : Heap Block) (packetAt : ℕ) (status : U8) : Option (Heap Block) :=
  match h packetAt with
  | some (.packet p) => some (h.put packetAt (.packet { p with status := status }))
  | _ => none

/-- `tx.send`: without a receiver the message is dropped. -/
def send (s : ClientMemory) (tx : ℕ) (m : Message) : Option ClientMemory := do
  let call ← s.calls[tx]?
  if call.receiver then
    some { s with calls := s.calls.set tx { call with channel := .full m } }
  else do
    let h ← dropMessage s.heap m
    some { s with heap := h, calls := s.calls.set tx { call with channel := .taken } }

def completed (s : ClientMemory) (k : ℕ) (call : RequestCall) (answer : CompletionMessage) :
    Option ClientMemory := do
  let h ← writeStatus s.heap call.packetAt answer.status
  let (h, tx, m) ← takeBack h call.packetAt answer.result
  send { s with heap := h, calls := s.calls.set k { call with answer := some answer } } tx m

def read (s : ClientMemory) (k : ℕ) (call : RequestCall) (m : Message) : Option ClientMemory :=
  match s.heap m.packet with
  | some (.packet p) => do
    let h ← dropMessage s.heap m
    some { s with
      heap := h
      calls := s.calls.set k
        { call with channel := .taken, receiver := false, returned := some ⟨p.status, m.result⟩ } }
  | _ => none

def hangUp (s : ClientMemory) (k : ℕ) (call : RequestCall) : Option ClientMemory :=
  match call.channel with
  | .full m => do
    let h ← dropMessage s.heap m
    some { s with
      heap := h
      calls := s.calls.set k { call with channel := .taken, receiver := false } }
  | _ => some { s with calls := s.calls.set k { call with receiver := false } }

def shut (s : ClientMemory) (a : ℕ) : Option ClientMemory :=
  if s.heap a = some .client then some { s with heap := s.heap.release a, client := none } else none

/-- No next state is undefined behaviour. -/
def orFault (s : ClientMemory) (next : Option ClientMemory) : ClientMemory :=
  next.getD { s with faulted := true }

def step (s : ClientMemory) (a : ClientAction) : Option ClientMemory :=
  if s.faulted then none
  else match a with
    | .submit op count callbackAt eventsAt packetAt =>
      if s.client.isSome then
        (createPacket s.heap s.calls.length op count callbackAt eventsAt packetAt).map fun h =>
          { s with
            heap := h
            calls := s.calls ++
              [⟨op, count, callbackAt, eventsAt, packetAt, .empty, true, none, none⟩] }
      else none
    | .complete k answer =>
      match s.calls[k]? with
      | some call =>
        if call.answer = none then some (s.orFault (s.completed k call answer)) else none
      | none => none
    | .poll k =>
      match s.calls[k]? with
      | some call =>
        match call.channel with
        | .full m => if call.receiver then some (s.orFault (s.read k call m)) else none
        | _ => none
      | none => none
    | .dropFuture k =>
      match s.calls[k]? with
      | some call => if call.receiver then some (s.orFault (s.hangUp k call)) else none
      | none => none
    | .close =>
      -- `tb_client_deinit` returns when every call is completed
      match s.client with
      | some a =>
        if ∀ call ∈ s.calls, call.answer ≠ none then some (s.orFault (s.shut a)) else none
      | none => none

end ClientMemory

/-! ## The owners -/

namespace RequestCall

/-- What does not change in a call. -/
def fixed (call : RequestCall) : Operation × ℕ × ℕ × ℕ × ℕ :=
  (call.op, call.count, call.callbackAt, call.eventsAt, call.packetAt)

structure Apart (call : RequestCall) : Prop where
  callback : call.callbackAt ≠ call.packetAt
  events : 0 < call.count → call.eventsAt ≠ call.callbackAt ∧ call.eventsAt ≠ call.packetAt

def withEvents (call : RequestCall) (h : Heap Block) : Heap Block :=
  if call.count = 0 then h else h.put call.eventsAt (.buffer call.op call.count)

def dataSize (call : RequestCall) : U32 := BitVec.ofNat 32 (call.op.eventSize * call.count)

def owned (call : RequestCall) (k : ℕ) : Heap Block :=
  match call.channel with
  | .empty => (call.withEvents (Heap.empty.put call.callbackAt (.callback call.op k))).put
      call.packetAt (.packet ⟨some call.callbackAt, some call.eventsAt, call.dataSize, 0⟩)
  | .full _ => (call.withEvents Heap.empty).put call.packetAt
      (.packet ⟨none, none, call.dataSize, (call.answer.map CompletionMessage.status).getD 0⟩)
  | .taken => Heap.empty

theorem Apart.congr {call call' : RequestCall} (h : call'.fixed = call.fixed)
    (hapart : call.Apart) : call'.Apart := by
  simp only [fixed, Prod.mk.injEq] at h
  obtain ⟨_, hcount, hcallback, hevents, hpacket⟩ := h
  constructor
  · rw [hcallback, hpacket]
    exact hapart.callback
  · rw [hcount, hcallback, hevents, hpacket]
    exact hapart.events

theorem owned_empty {call : RequestCall} (h : call.channel = .empty) (k : ℕ) : call.owned k =
    (call.withEvents (Heap.empty.put call.callbackAt (.callback call.op k))).put call.packetAt
      (.packet ⟨some call.callbackAt, some call.eventsAt, call.dataSize, 0⟩) := by
  rw [owned, h]

theorem owned_full {call : RequestCall} {m : Message} {answer : CompletionMessage}
    (h : call.channel = .full m) (hanswer : call.answer = some answer) (k : ℕ) :
    call.owned k = (call.withEvents Heap.empty).put call.packetAt
      (.packet ⟨none, none, call.dataSize, answer.status⟩) := by
  rw [owned, h, hanswer]
  rfl

theorem owned_taken {call : RequestCall} (h : call.channel = .taken) (k : ℕ) :
    call.owned k = Heap.empty := by
  rw [owned, h]

def message (call : RequestCall) (answer : CompletionMessage) : Message :=
  ⟨call.packetAt, call.eventsAt, call.count, call.op, answer.result⟩

/-- The channel follows the cluster. -/
inductive Consistent (call : RequestCall) : Prop
  | waiting (hchannel : call.channel = .empty) (hanswer : call.answer = none)
      (hreturned : call.returned = none)
  | delivered {answer : CompletionMessage} (hchannel : call.channel = .full (call.message answer))
      (hanswer : call.answer = some answer) (hreturned : call.returned = none)
      (hreceiver : call.receiver = true)
  | ended {answer : CompletionMessage} (hchannel : call.channel = .taken)
      (hanswer : call.answer = some answer)
      (hreturned : ∀ r, call.returned = some r → r = answer)

end RequestCall

namespace ClientMemory

def parts (s : ClientMemory) : Option ℕ → Heap Block
  | none => match s.client with
    | some a => Heap.empty.put a .client
    | none => Heap.empty
  | some k => match s.calls[k]? with
    | some call => call.owned k
    | none => Heap.empty

/-- No undefined behaviour so far, and every block of the heap has one owner, who holds it with the
size it was allocated with. -/
structure Sound (s : ClientMemory) : Prop where
  defined : s.faulted = false
  split : s.heap.Split s.parts
  consistent : ∀ call ∈ s.calls, call.Consistent

structure Inv (s : ClientMemory) : Prop where
  apart : ∀ call ∈ s.calls, call.Apart

def Fits (s : ClientMemory) : ClientAction → Prop
  | .complete k _ => ∀ call, s.calls[k]? = some call → call.op.eventSize * call.count < 2 ^ 32
  | _ => True

/-! ## Allocation -/

section Blocks

variable {h h' : Heap Block} {parts : Option ℕ → Heap Block} {i : Option ℕ} {call : RequestCall}

theorem alloc_cases {a : ℕ} {b : Block} (halloc : alloc h a b = some h') :
    h a = none ∧ h' = h.put a b := by
  unfold alloc at halloc
  split_ifs at halloc with hsome
  cases halloc
  exact ⟨Option.not_isSome_iff_eq_none.1 hsome, rfl⟩

theorem createPacket_cases {tx : ℕ}
    (hcreate : createPacket h tx call.op call.count call.callbackAt call.eventsAt call.packetAt =
      some h') :
    h call.callbackAt = none ∧ ∃ h₂,
      allocEvents (h.put call.callbackAt (.callback call.op tx)) call.eventsAt call.op call.count =
        some h₂ ∧ h₂ call.packetAt = none ∧
      h' = h₂.put call.packetAt
        (.packet ⟨some call.callbackAt, some call.eventsAt, call.dataSize, 0⟩) := by
  simp only [createPacket, Option.bind_eq_bind, Option.bind_eq_some_iff] at hcreate
  obtain ⟨h₁, hfirst, h₂, hevents, hlast⟩ := hcreate
  obtain ⟨hfree₁, rfl⟩ := alloc_cases hfirst
  obtain ⟨hfree₃, rfl⟩ := alloc_cases hlast
  exact ⟨hfree₁, h₂, hevents, hfree₃, rfl⟩

theorem createPacket_apart {tx : ℕ}
    (hcreate : createPacket h tx call.op call.count call.callbackAt call.eventsAt call.packetAt =
      some h') : call.Apart := by
  obtain ⟨_, h₂, hevents, hfree, _⟩ := createPacket_cases hcreate
  have hcallback : (h.put call.callbackAt (.callback call.op tx)) call.callbackAt ≠ none := by
    rw [Heap.put_same]
    exact Option.some_ne_none _
  unfold allocEvents at hevents
  by_cases hcount : call.count = 0
  · rw [if_pos hcount, Option.some.injEq] at hevents
    subst hevents
    refine ⟨?_, fun hpos => absurd hcount hpos.ne'⟩
    intro heq
    rw [← heq] at hfree
    exact hcallback hfree
  · rw [if_neg hcount] at hevents
    obtain ⟨hfree₂, rfl⟩ := alloc_cases hevents
    have hne : call.eventsAt ≠ call.callbackAt := by
      intro heq
      rw [heq] at hfree₂
      exact hcallback hfree₂
    refine ⟨?_, fun _ => ⟨hne, ?_⟩⟩
    · intro heq
      rw [← heq, Heap.put_of_ne hne.symm] at hfree
      exact hcallback hfree
    · intro heq
      rw [← heq, Heap.put_same] at hfree
      cases hfree

theorem createPacket_owned {tx : ℕ} (hchannel : call.channel = .empty)
    (hcreate : createPacket h tx call.op call.count call.callbackAt call.eventsAt call.packetAt =
      some h') (hs : h.Split (Function.update parts i Heap.empty)) :
    h'.Split (Function.update parts i (call.owned tx)) := by
  obtain ⟨hfree₁, h₂, hevents, hfree₃, rfl⟩ := createPacket_cases hcreate
  have hs₁ := hs.put_new (b := .callback call.op tx) hfree₁
  rw [RequestCall.owned_empty hchannel]
  unfold allocEvents at hevents
  by_cases hcount : call.count = 0
  · rw [if_pos hcount, Option.some.injEq] at hevents
    subst hevents
    simp only [RequestCall.withEvents, if_pos hcount]
    exact hs₁.put_new hfree₃
  · rw [if_neg hcount] at hevents
    obtain ⟨hfree₂, rfl⟩ := alloc_cases hevents
    simp only [RequestCall.withEvents, if_neg hcount]
    exact (hs₁.put_new hfree₂).put_new hfree₃

/-! ## Completion -/

theorem withEvents_release (hapart : call.Apart) (b p : Block) :
    ((call.withEvents (Heap.empty.put call.callbackAt b)).put call.packetAt p).release
      call.callbackAt = (call.withEvents Heap.empty).put call.packetAt p := by
  have hne := hapart.callback
  unfold RequestCall.withEvents
  by_cases hcount : call.count = 0
  · rw [if_pos hcount, if_pos hcount, Heap.put_comm hne, Heap.release_put]
    rw [Heap.put_of_ne hne]
    rfl
  · have hne' := (hapart.events (Nat.pos_of_ne_zero hcount)).1
    rw [if_neg hcount, if_neg hcount, Heap.put_comm hne'.symm, Heap.put_comm hne,
      Heap.release_put]
    rw [Heap.put_of_ne hne, Heap.put_of_ne hne'.symm]
    rfl

theorem withEvents_callback (hapart : call.Apart) (b : Block) :
    (call.withEvents (Heap.empty.put call.callbackAt b)) call.callbackAt = some b := by
  unfold RequestCall.withEvents
  split_ifs with hcount
  · exact Heap.put_same
  · rw [Heap.put_of_ne (hapart.events (Nat.pos_of_ne_zero hcount)).1.symm]
    exact Heap.put_same

/-- The completion takes the callback back and finds the channel and the events of its call; the
length of the events is what the packet says. -/
theorem takeBack_owned {k : ℕ} (hapart : call.Apart) (hchannel : call.channel = .empty)
    (hs : h.Split (Function.update parts i (call.owned k))) (answer : CompletionMessage) :
    ∃ h', (writeStatus h call.packetAt answer.status).bind
        (fun h => takeBack h call.packetAt answer.result) = some (h', k, ⟨call.packetAt,
          call.eventsAt, call.dataSize.toNat / call.op.eventSize, call.op, answer.result⟩) ∧
      h'.Split (Function.update parts i ((call.withEvents Heap.empty).put call.packetAt
        (.packet ⟨none, none, call.dataSize, answer.status⟩))) := by
  rw [RequestCall.owned_empty hchannel] at hs
  have hpacket := hs.get_own Heap.put_same
  have hcallback := hs.get_own (a := call.callbackAt) (b := .callback call.op k) (by
    rw [Heap.put_of_ne hapart.callback]
    exact withEvents_callback hapart _)
  refine ⟨(h.put call.packetAt (.packet ⟨none, none, call.dataSize, answer.status⟩)).release
    call.callbackAt, ?_, ?_⟩
  · rw [writeStatus, hpacket]
    simp only [Option.bind_some, takeBack, Heap.put_same, Heap.put_of_ne hapart.callback,
      hcallback, Heap.put_put]
  · have hput := hs.put_own (a := call.packetAt)
      (b := .packet ⟨none, none, call.dataSize, answer.status⟩) (by rw [Heap.put_same]; rfl)
    rw [Heap.put_put] at hput
    have hrelease := hput.release (a := call.callbackAt) (by
      rw [Heap.put_of_ne hapart.callback, withEvents_callback hapart]
      rfl)
    rwa [withEvents_release hapart] at hrelease

/-! ## The end of a message -/

theorem dropMessage_owned (hapart : call.Apart) {p : RawPacket}
    (hs : h.Split (Function.update parts i
      ((call.withEvents Heap.empty).put call.packetAt (.packet p)))) (answer : CompletionMessage) :
    ∃ h', dropMessage h (call.message answer) = some h' ∧
      h'.Split (Function.update parts i Heap.empty) := by
  have hpacket := hs.get_own Heap.put_same
  have hrest := hs.release (a := call.packetAt) (by rw [Heap.put_same]; rfl)
  unfold dropMessage RequestCall.message dropEvents
  by_cases hcount : call.count = 0
  · simp only [RequestCall.withEvents, if_pos hcount] at hrest
    rw [Heap.release_put rfl] at hrest
    refine ⟨_, ?_, hrest⟩
    simp only [hpacket, if_pos hcount]
  · have hne := (hapart.events (Nat.pos_of_ne_zero hcount)).2
    simp only [RequestCall.withEvents, if_neg hcount] at hrest
    rw [Heap.release_put (by rw [Heap.put_of_ne hne.symm]; rfl)] at hrest
    have hevents := hrest.get_own Heap.put_same
    have hempty := hrest.release (a := call.eventsAt) (by rw [Heap.put_same]; rfl)
    rw [Heap.release_put rfl] at hempty
    refine ⟨_, ?_, hempty⟩
    simp only [hpacket, if_neg hcount, if_pos hevents]

/-- A message with another length does not free the buffer. -/
theorem dropMessage_kept (hapart : call.Apart) {p : RawPacket}
    (hs : h.Split (Function.update parts i
      ((call.withEvents Heap.empty).put call.packetAt (.packet p)))) {m : Message}
    (hpacketAt : m.packet = call.packetAt) (heventsAt : m.events = call.eventsAt)
    (hpos : 0 < call.count) (hlength : m.length ≠ call.count)
    (hdrop : dropMessage h m = some h') :
    h' call.eventsAt = some (.buffer call.op call.count) := by
  have hne := (hapart.events hpos).2
  have hpacket := hs.get_own Heap.put_same
  have hevents := hs.get_own (a := call.eventsAt) (b := .buffer call.op call.count) (by
    rw [Heap.put_of_ne hne]
    simp only [RequestCall.withEvents, if_neg hpos.ne', Heap.put_same])
  have hkept : (h.release call.packetAt) call.eventsAt = some (.buffer call.op call.count) := by
    rw [Heap.release_of_ne hne, hevents]
  simp only [dropMessage, hpacketAt, heventsAt, hpacket, dropEvents] at hdrop
  split_ifs at hdrop with hzero hsame
  · cases hdrop
    exact hkept
  · rw [hkept, Option.some.injEq, Block.buffer.injEq] at hsame
    exact absurd hsame.2.symm hlength

theorem length_iff (call : RequestCall) :
    call.dataSize.toNat / call.op.eventSize = call.count ↔
      call.op.eventSize * call.count < 2 ^ 32 := by
  have hsize := call.op.eventSize_pos
  rw [RequestCall.dataSize, BitVec.toNat_ofNat]
  constructor
  · intro h
    by_contra hlarge
    have hlt : call.op.eventSize * call.count % 2 ^ 32 < call.op.eventSize * call.count :=
      (Nat.mod_lt _ (by decide)).trans_le (not_lt.1 hlarge)
    have hdiv := Nat.div_lt_of_lt_mul hlt
    omega
  · intro h
    rw [Nat.mod_eq_of_lt h, Nat.mul_div_cancel_left _ hsize]

end Blocks

/-! ## Steps -/

section Steps

variable {s s' : ClientMemory} {k : ℕ} {call call' : RequestCall} {h : Heap Block}

theorem parts_some (hk : s.calls[k]? = some call) : s.parts (some k) = call.owned k := by
  rw [parts, hk]

theorem parts_set (hk : s.calls[k]? = some call) (h : Heap Block) :
    ({ s with heap := h, calls := s.calls.set k call' } : ClientMemory).parts =
      Function.update s.parts (some k) (call'.owned k) := by
  have hlt : k < s.calls.length := (List.getElem?_eq_some_iff.1 hk).1
  funext i
  by_cases hik : i = some k
  · subst hik
    rw [Function.update_self, parts_some (List.getElem?_set_self hlt)]
  · rw [Function.update_of_ne hik]
    cases i with
    | none => rfl
    | some j =>
        have hjk : k ≠ j := fun heq => hik (heq ▸ rfl)
        simp only [parts, List.getElem?_set_ne hjk]

theorem Sound.own (hs : s.Sound) (hk : s.calls[k]? = some call) :
    s.heap.Split (Function.update s.parts (some k) (call.owned k)) := by
  rw [← parts_some hk, Function.update_eq_self]
  exact hs.split

theorem Sound.consistent_get (hs : s.Sound) (hk : s.calls[k]? = some call) : call.Consistent :=
  hs.consistent call (List.mem_of_getElem? hk)

theorem Sound.set (hs : s.Sound) (hk : s.calls[k]? = some call)
    (hsplit : h.Split (Function.update s.parts (some k) (call'.owned k)))
    (hconsistent : call'.Consistent) :
    ({ s with heap := h, calls := s.calls.set k call' } : ClientMemory).Sound := by
  constructor
  · exact hs.defined
  · rw [parts_set hk]
    exact hsplit
  · intro c hc
    rcases List.mem_or_eq_of_mem_set hc with hold | rfl
    · exact hs.consistent c hold
    · exact hconsistent

theorem not_sound_of_fault : ¬ ({ s with faulted := true } : ClientMemory).Sound :=
  fun hs => Bool.noConfusion hs.defined

/-- The buffer of a call that is over has no owner. -/
theorem not_sound_of_kept (hs : s.Sound) (hk : s.calls[k]? = some call)
    (hpos : 0 < call.count) (hchannel : call.channel = .empty) (hapart : call.Apart)
    (htaken : call'.channel = .taken)
    (hkept : h call.eventsAt = some (.buffer call.op call.count)) :
    ¬ ({ s with heap := h, calls := s.calls.set k call' } : ClientMemory).Sound := by
  intro hs'
  obtain ⟨i, hi⟩ := (hs'.split.cell _ _).1 hkept
  have hmine : (s.parts (some k) call.eventsAt).isSome := by
    rw [parts_some hk, RequestCall.owned_empty hchannel, Heap.put_of_ne (hapart.events hpos).2]
    simp only [RequestCall.withEvents, if_neg hpos.ne', Heap.put_same, Option.isSome_some]
  rw [parts_set hk] at hi
  by_cases hik : i = some k
  · subst hik
    rw [Function.update_self, RequestCall.owned_taken htaken] at hi
    cases hi
  · rw [Function.update_of_ne hik] at hi
    exact hik (hs.split.apart _ _ _ (by rw [hi]; rfl) hmine)

/-- A completion is sound exactly when the bytes of the events fit. -/
theorem completed_sound_iff (hs : s.Sound) (hapart : call.Apart) (hk : s.calls[k]? = some call)
    (hanswer : call.answer = none) (answer : CompletionMessage) :
    (s.orFault (s.completed k call answer)).Sound ↔
      call.op.eventSize * call.count < 2 ^ 32 := by
  obtain ⟨hchannel, hreturned⟩ : call.channel = .empty ∧ call.returned = none := by
    cases hs.consistent_get hk with
    | waiting hchannel _ hreturned => exact ⟨hchannel, hreturned⟩
    | delivered _ hsome | ended _ hsome =>
        rw [hanswer] at hsome
        cases hsome
  obtain ⟨h', htake, hsplit⟩ := takeBack_owned hapart hchannel (hs.own hk) answer
  have hcompleted : s.completed k call answer = send
      { s with heap := h', calls := s.calls.set k { call with answer := some answer } } k
      ⟨call.packetAt, call.eventsAt, call.dataSize.toNat / call.op.eventSize, call.op,
        answer.result⟩ := by
    simp only [completed, Option.bind_eq_bind]
    rw [← Option.bind_assoc, htake]
    rfl
  rw [hcompleted, send, List.getElem?_set_self (List.getElem?_eq_some_iff.1 hk).1]
  simp only [Option.bind_eq_bind, Option.bind_some, List.set_set]
  by_cases hreceiver : call.receiver = true
  · simp only [if_pos hreceiver, orFault, Option.getD_some]
    constructor
    · intro hs'
      have hnew := hs'.consistent_get
        (List.getElem?_set_self (List.getElem?_eq_some_iff.1 hk).1)
      cases hnew with
      | waiting hempty => cases hempty
      | delivered hfull _ =>
          rw [← length_iff]
          exact congrArg Message.length (ChannelStage.full.inj hfull)
      | ended htaken => cases htaken
    · intro hfits
      rw [(length_iff call).2 hfits]
      apply hs.set hk
      · rw [RequestCall.owned_full rfl rfl]
        exact hsplit
      · exact .delivered rfl rfl hreturned hreceiver
  · simp only [if_neg hreceiver, orFault]
    by_cases hfits : call.op.eventSize * call.count < 2 ^ 32
    · rw [(length_iff call).2 hfits]
      obtain ⟨h'', hdrop, hsplit'⟩ := dropMessage_owned hapart hsplit answer
      have hmessage : dropMessage h' ⟨call.packetAt, call.eventsAt, call.count, call.op,
          answer.result⟩ = some h'' := hdrop
      simp only [hmessage, Option.bind_some, Option.getD_some]
      refine iff_of_true (hs.set hk ?_ ?_) hfits
      · rw [RequestCall.owned_taken rfl]
        exact hsplit'
      · refine .ended rfl rfl fun r hr => ?_
        rw [hreturned] at hr
        cases hr
    · have hlength := fun heq => hfits ((length_iff call).1 heq)
      have hpos : 0 < call.count := by
        by_contra hzero
        rw [Nat.eq_zero_of_not_pos hzero] at hfits
        exact hfits (by rw [Nat.mul_zero]; decide)
      refine iff_of_false ?_ hfits
      generalize hdrop : dropMessage h' _ = dropped
      cases dropped with
      | none => exact not_sound_of_fault
      | some h'' =>
          exact not_sound_of_kept hs hk hpos hchannel hapart rfl
            (dropMessage_kept hapart hsplit rfl rfl hpos hlength hdrop)

theorem read_sound (hs : s.Sound) (hapart : call.Apart) (hk : s.calls[k]? = some call)
    {m : Message} (hfull : call.channel = .full m) : (s.orFault (s.read k call m)).Sound := by
  cases hs.consistent_get hk with
  | waiting hempty =>
      rw [hfull] at hempty
      cases hempty
  | ended htaken =>
      rw [hfull] at htaken
      cases htaken
  | @delivered answer hchannel hanswer hreturned hreceiver =>
      have hown := hs.own hk
      rw [RequestCall.owned_full hchannel hanswer] at hown
      obtain ⟨h', hdrop, hsplit⟩ := dropMessage_owned hapart hown answer
      obtain rfl : m = call.message answer := ChannelStage.full.inj (hfull.symm.trans hchannel)
      have hpacket : s.heap (call.message answer).packet =
          some (.packet ⟨none, none, call.dataSize, answer.status⟩) := hown.get_own Heap.put_same
      simp only [read, hpacket, hdrop, Option.bind_eq_bind, Option.bind_some, orFault,
        Option.getD_some]
      apply hs.set hk
      · rw [RequestCall.owned_taken rfl]
        exact hsplit
      · refine .ended rfl hanswer fun r hr => ?_
        rw [← Option.some.inj hr]
        rfl

theorem hangUp_sound (hs : s.Sound) (hapart : call.Apart) (hk : s.calls[k]? = some call) :
    (s.orFault (s.hangUp k call)).Sound := by
  have hown := hs.own hk
  cases hs.consistent_get hk with
  | waiting hchannel hanswer hreturned =>
      simp only [hangUp, hchannel, orFault, Option.getD_some]
      rw [RequestCall.owned_empty hchannel] at hown
      refine hs.set (h := s.heap) hk ?_ (.waiting rfl hanswer hreturned)
      rw [RequestCall.owned_empty rfl]
      exact hown
  | @delivered answer hchannel hanswer hreturned hreceiver =>
      rw [RequestCall.owned_full hchannel hanswer] at hown
      obtain ⟨h', hdrop, hsplit⟩ := dropMessage_owned hapart hown answer
      simp only [hangUp, hchannel, hdrop, Option.bind_eq_bind, Option.bind_some, orFault,
        Option.getD_some]
      apply hs.set hk
      · rw [RequestCall.owned_taken rfl]
        exact hsplit
      · refine .ended rfl hanswer fun r hr => ?_
        rw [hreturned] at hr
        cases hr
  | ended htaken hanswer hreturned =>
      simp only [hangUp, htaken, orFault, Option.getD_some]
      rw [RequestCall.owned_taken htaken] at hown
      refine hs.set (h := s.heap) hk ?_ (.ended rfl hanswer hreturned)
      rw [RequestCall.owned_taken rfl]
      exact hown

theorem shut_sound (hs : s.Sound) {a : ℕ} (hclient : s.client = some a) :
    (s.orFault (s.shut a)).Sound := by
  have hown : s.heap.Split (Function.update s.parts none (Heap.empty.put a .client)) := by
    have hpart : s.parts none = Heap.empty.put a .client := by rw [parts, hclient]
    rw [← hpart, Function.update_eq_self]
    exact hs.split
  have hrest := hown.release (a := a) (by rw [Heap.put_same]; rfl)
  rw [Heap.release_put rfl] at hrest
  rw [shut, if_pos (hown.get_own Heap.put_same), orFault, Option.getD_some]
  constructor
  · exact hs.defined
  · convert hrest using 1
    funext i
    cases i with
    | none => rw [Function.update_self, parts]
    | some j => rw [Function.update_of_ne (Option.some_ne_none j)]; rfl
  · exact hs.consistent

theorem submit_sound (hs : s.Sound) (hchannel : call.channel = .empty)
    (hanswer : call.answer = none) (hreturned : call.returned = none)
    (hcreate : createPacket s.heap s.calls.length call.op call.count call.callbackAt call.eventsAt
      call.packetAt = some h) :
    ({ s with heap := h, calls := s.calls ++ [call] } : ClientMemory).Sound := by
  have hnone : s.parts (some s.calls.length) = Heap.empty := by
    simp only [parts, List.getElem?_eq_none le_rfl]
  have hold : s.heap.Split (Function.update s.parts (some s.calls.length) Heap.empty) := by
    rw [← hnone, Function.update_eq_self]
    exact hs.split
  have hown := createPacket_owned hchannel hcreate hold
  constructor
  · exact hs.defined
  · convert hown using 1
    funext i
    by_cases hi : i = some s.calls.length
    · subst hi
      rw [Function.update_self, parts_some List.getElem?_concat_length]
    · rw [Function.update_of_ne hi]
      cases i with
      | none => rfl
      | some j =>
          have hne : j ≠ s.calls.length := fun heq => hi (heq ▸ rfl)
          simp only [parts]
          rcases lt_or_gt_of_ne hne with hlt | hgt
          · rw [List.getElem?_append_left hlt]
          · have hlength : (s.calls ++ [call]).length ≤ j := by
              rw [List.length_append, List.length_singleton]
              omega
            rw [List.getElem?_eq_none hlength, List.getElem?_eq_none hgt.le]
  · intro c hc
    rcases List.mem_append.1 hc with hold | hnew
    · exact hs.consistent c hold
    · rw [List.mem_singleton.1 hnew]
      exact .waiting hchannel hanswer hreturned

inductive Moves (s : ClientMemory) : ClientAction → ClientMemory → Prop
  | submitted (call : RequestCall) (h : Heap Block) (hchannel : call.channel = .empty)
      (hanswer : call.answer = none) (hreturned : call.returned = none)
      (hcreate : createPacket s.heap s.calls.length call.op call.count call.callbackAt
        call.eventsAt call.packetAt = some h) :
      Moves s (.submit call.op call.count call.callbackAt call.eventsAt call.packetAt)
        { s with heap := h, calls := s.calls ++ [call] }
  | completed (k : ℕ) (call : RequestCall) (answer : CompletionMessage)
      (hk : s.calls[k]? = some call) (hanswer : call.answer = none) :
      Moves s (.complete k answer) (s.orFault (s.completed k call answer))
  | polled (k : ℕ) (call : RequestCall) (m : Message) (hk : s.calls[k]? = some call)
      (hfull : call.channel = .full m) : Moves s (.poll k) (s.orFault (s.read k call m))
  | hungUp (k : ℕ) (call : RequestCall) (hk : s.calls[k]? = some call) :
      Moves s (.dropFuture k) (s.orFault (s.hangUp k call))
  | closed (a : ℕ) (hclient : s.client = some a) : Moves s .close (s.orFault (s.shut a))

theorem step_moves {a : ClientAction} (hstep : s.step a = some s') : Moves s a s' := by
  unfold step at hstep
  by_cases hfaulted : s.faulted = true
  · rw [if_pos hfaulted] at hstep
    cases hstep
  rw [if_neg hfaulted] at hstep
  cases a with
  | submit op count callbackAt eventsAt packetAt =>
      dsimp only at hstep
      split_ifs at hstep
      obtain ⟨h, hcreate, rfl⟩ := Option.map_eq_some_iff.1 hstep
      exact .submitted ⟨op, count, callbackAt, eventsAt, packetAt, .empty, true, none, none⟩ h rfl
        rfl rfl hcreate
  | complete k answer =>
      dsimp only at hstep
      split at hstep
      · next call hk =>
          split_ifs at hstep with hanswer
          cases hstep
          exact .completed k call answer hk hanswer
      · cases hstep
  | poll k =>
      dsimp only at hstep
      split at hstep
      · next call hk =>
          split at hstep
          · next m hfull =>
              split_ifs at hstep
              cases hstep
              exact .polled k call m hk hfull
          · cases hstep
      · cases hstep
  | dropFuture k =>
      dsimp only at hstep
      split at hstep
      · next call hk =>
          split_ifs at hstep
          cases hstep
          exact .hungUp k call hk
      · cases hstep
  | close =>
      dsimp only at hstep
      split at hstep
      · next a hclient =>
          split_ifs at hstep
          cases hstep
          exact .closed a hclient
      · cases hstep

theorem moves_sound_iff {a : ClientAction} (hi : s.Inv) (hs : s.Sound) (hmoves : Moves s a s') :
    s'.Sound ↔ s.Fits a := by
  cases hmoves with
  | submitted call h hchannel hanswer hreturned hcreate =>
      exact iff_of_true (submit_sound hs hchannel hanswer hreturned hcreate) trivial
  | completed k call answer hk hanswer =>
      rw [completed_sound_iff hs (hi.apart call (List.mem_of_getElem? hk)) hk hanswer]
      constructor
      · intro hfits call' hk'
        rw [hk, Option.some.injEq] at hk'
        rwa [← hk']
      · exact fun hfits => hfits call hk
  | polled k call m hk hfull =>
      exact iff_of_true (read_sound hs (hi.apart call (List.mem_of_getElem? hk)) hk hfull) trivial
  | hungUp k call hk =>
      exact iff_of_true (hangUp_sound hs (hi.apart call (List.mem_of_getElem? hk)) hk) trivial
  | closed a hclient => exact iff_of_true (shut_sound hs hclient) trivial

/-! ## Calls only grow in number -/

def fixedCalls (s : ClientMemory) : List (Operation × ℕ × ℕ × ℕ × ℕ) :=
  s.calls.map RequestCall.fixed

theorem fixedCalls_set (hk : s.calls[k]? = some call) (hfixed : call'.fixed = call.fixed) :
    (s.calls.set k call').map RequestCall.fixed = s.fixedCalls := by
  rw [List.map_set, hfixed]
  exact set_of_getElem? (by rw [List.getElem?_map, hk]; rfl)

theorem fixedCalls_orFault {next : Option ClientMemory}
    (hnext : ∀ t, next = some t → t.fixedCalls = s.fixedCalls) :
    (s.orFault next).fixedCalls = s.fixedCalls := by
  cases next with
  | none => rfl
  | some t => exact hnext t rfl

theorem fixedCalls_send {tx : ℕ} {m : Message} (hsend : s.send tx m = some s') :
    s'.fixedCalls = s.fixedCalls := by
  simp only [send, Option.bind_eq_bind, Option.bind_eq_some_iff] at hsend
  obtain ⟨call, hk, hsend⟩ := hsend
  split_ifs at hsend
  · cases hsend
    exact fixedCalls_set hk rfl
  · obtain ⟨h, _, hs'⟩ := Option.bind_eq_some_iff.1 hsend
    cases hs'
    exact fixedCalls_set hk rfl

theorem moves_fixedCalls {a : ClientAction} (hmoves : Moves s a s') :
    s'.fixedCalls = s.fixedCalls ∨
      ∃ call : RequestCall, call.Apart ∧ s'.fixedCalls = s.fixedCalls ++ [call.fixed] := by
  cases hmoves with
  | submitted call h hchannel hanswer hreturned hcreate =>
      exact .inr ⟨call, createPacket_apart hcreate, List.map_append⟩
  | completed k call answer hk hanswer =>
      refine .inl (fixedCalls_orFault fun t ht => ?_)
      simp only [completed, Option.bind_eq_bind, Option.bind_eq_some_iff] at ht
      obtain ⟨h₁, _, ⟨h₂, tx, m⟩, _, hsend⟩ := ht
      rw [fixedCalls_send hsend]
      exact fixedCalls_set hk rfl
  | polled k call m hk hfull =>
      refine .inl (fixedCalls_orFault fun t ht => ?_)
      unfold read at ht
      split at ht
      · obtain ⟨h, _, ht⟩ := Option.bind_eq_some_iff.1 ht
        cases ht
        exact fixedCalls_set hk rfl
      · cases ht
  | hungUp k call hk =>
      refine .inl (fixedCalls_orFault fun t ht => ?_)
      unfold hangUp at ht
      split at ht
      · obtain ⟨h, _, ht⟩ := Option.bind_eq_some_iff.1 ht
        cases ht
        exact fixedCalls_set hk rfl
      · cases ht
        exact fixedCalls_set hk rfl
  | closed a hclient =>
      refine .inl (fixedCalls_orFault fun t ht => ?_)
      unfold shut at ht
      split_ifs at ht
      cases ht
      rfl

theorem step_inv {a : ClientAction} (hi : s.Inv) (hstep : s.step a = some s') : s'.Inv := by
  constructor
  intro c hc
  have hmem : c.fixed ∈ s'.fixedCalls := List.mem_map_of_mem hc
  have hold : c.fixed ∈ s.fixedCalls → c.Apart := by
    intro h
    obtain ⟨c₀, hc₀, hfixed⟩ := List.mem_map.1 h
    exact (hi.apart c₀ hc₀).congr hfixed.symm
  rcases moves_fixedCalls (step_moves hstep) with hsame | ⟨call, hapart, hnew⟩
  · rw [hsame] at hmem
    exact hold hmem
  · rw [hnew] at hmem
    rcases List.mem_append.1 hmem with h | h
    · exact hold h
    · exact hapart.congr (List.mem_singleton.1 h)

end Steps

/-! ## Runs -/

section Runs

variable {clientAt : ℕ} {actions : List ClientAction} {s : ClientMemory}

theorem initial_inv (clientAt : ℕ) : (initial clientAt).Inv := ⟨fun _ hc => nomatch hc⟩

theorem initial_sound (clientAt : ℕ) : (initial clientAt).Sound := by
  refine ⟨rfl, ⟨fun a b => ?_, fun a i j hi hj => ?_⟩, fun _ hc => nomatch hc⟩
  · constructor
    · exact fun h => ⟨none, h⟩
    · rintro ⟨_ | k, h⟩
      · exact h
      · cases h
  · cases i with
    | some k => cases hi
    | none =>
        cases j with
        | some k => cases hj
        | none => rfl

/-- Whatever the order of calls, completions and dropped futures: memory is sound throughout a run
exactly when each call that is completed had events of less than 2^32 bytes. -/
theorem sound_iff_fits (hrun : runFrom step (initial clientAt) actions = some s) :
    Throughout step Sound (initial clientAt) actions ↔
      StepsMeet step Fits (initial clientAt) actions :=
  throughout_iff_stepsMeet (fun _ _ _ hi h => step_inv hi h)
    (fun _ _ _ hi hs h => moves_sound_iff hi hs (step_moves h)) (initial_inv clientAt)
    (initial_sound clientAt) hrun

def oversized : List ClientAction :=
  [.submit .lookupAccounts 1 1 2 3, .submit .createAccounts (2 ^ 25) 4 5 6, .complete 1 ⟨0, []⟩]

theorem sound_iff_fits_oversized :
    ∃ s, runFrom step (initial 0) oversized = some s ∧
      ¬ Throughout step Sound (initial 0) oversized := by
  have hrun : runFrom step (initial 0) oversized =
      some ((runFrom step (initial 0) oversized).getD (initial 0)) := rfl
  refine ⟨_, hrun, fun hsound => ?_⟩
  have hfits := (sound_iff_fits hrun).1 hsound (oversized.take 2) (.complete 1 ⟨0, []⟩) []
    ((runFrom step (initial 0) (oversized.take 2)).getD (initial 0)) rfl rfl
    ⟨.createAccounts, 2 ^ 25, 4, 5, 6, .empty, true, none, none⟩ rfl
  exact absurd hfits (by decide)

def CallsFit (s : ClientMemory) : Prop :=
  ∀ call ∈ s.calls, call.op.eventSize * call.count < 2 ^ 32

instance (s : ClientMemory) : Decidable s.CallsFit :=
  inferInstanceAs (Decidable (∀ call ∈ s.calls, call.op.eventSize * call.count < 2 ^ 32))

theorem CallsFit.before {a : ClientAction} {s s' : ClientMemory} (hmoves : Moves s a s')
    (hfits : s'.CallsFit) : s.CallsFit := by
  intro c hc
  have hmem : c.fixed ∈ s'.fixedCalls := by
    have hold : c.fixed ∈ s.fixedCalls := List.mem_map_of_mem hc
    rcases moves_fixedCalls hmoves with hsame | ⟨call, _, hnew⟩
    · rwa [hsame]
    · rw [hnew]
      exact List.mem_append_left _ hold
  obtain ⟨c', hc', hfixed⟩ := List.mem_map.1 hmem
  have hle := hfits c' hc'
  simp only [RequestCall.fixed, Prod.mk.injEq] at hfixed
  rwa [hfixed.1, hfixed.2.1] at hle

theorem sound_of_callsFit (hrun : runFrom step (initial clientAt) actions = some s)
    (hfits : s.CallsFit) : s.Sound := by
  have hinv : s.Inv ∧ (s.CallsFit → s.Sound) := by
    refine invariant_run (I := fun t => t.Inv ∧ (t.CallsFit → t.Sound)) ?_
      ⟨initial_inv clientAt, fun _ => initial_sound clientAt⟩ hrun
    rintro t a t' ⟨hi, hs⟩ hstep
    refine ⟨step_inv hi hstep, fun hfits' => ?_⟩
    have hbefore := hfits'.before (step_moves hstep)
    refine (moves_sound_iff hi (hs hbefore) (step_moves hstep)).2 ?_
    cases a with
    | complete k answer => exact fun call hk => hbefore call (List.mem_of_getElem? hk)
    | _ => trivial
  exact hinv.2 hfits

/-- With events that fit, every future reads the answer to its own call, and when the client is
closed, every call answered and no future left, nothing is left in memory. -/
theorem futures_served (hrun : runFrom step (initial clientAt) actions = some s)
    (hfits : s.CallsFit) :
    (∀ call ∈ s.calls, ∀ r, call.returned = some r → call.answer = some r) ∧
      (s.client = none → (∀ call ∈ s.calls, call.answer ≠ none ∧ call.receiver = false) →
        s.heap = Heap.empty) := by
  have hs := sound_of_callsFit hrun hfits
  constructor
  · intro call hcall r hr
    cases hs.consistent call hcall with
    | waiting _ _ hreturned | delivered _ _ hreturned =>
        rw [hreturned] at hr
        cases hr
    | ended _ hanswer hreturned => rw [hanswer, hreturned r hr]
  · intro hclosed hdone
    apply hs.split.empty_of_parts
    rintro (_ | k)
    · rw [parts, hclosed]
    · simp only [parts]
      split
      · next call hk =>
          have hmem := List.mem_of_getElem? hk
          obtain ⟨hanswer, hreceiver⟩ := hdone call hmem
          cases hs.consistent call hmem with
          | waiting _ hnone => exact absurd hnone hanswer
          | delivered _ _ _ htrue =>
              rw [hreceiver] at htrue
              cases htrue
          | ended htaken => exact RequestCall.owned_taken htaken k
      · rfl

def threeCalls : List ClientAction :=
  [.submit .createAccounts 2 1 2 3, .submit .lookupAccounts 0 4 5 6, .complete 1 ⟨3, []⟩,
    .submit .queryTransfers 1 4 7 8, .dropFuture 0, .complete 2 ⟨0, [1, 2]⟩, .complete 0 ⟨0, []⟩,
    .poll 2, .dropFuture 1, .close]

def threeServed : ClientMemory := (runFrom step (initial 0) threeCalls).getD (initial 0)

theorem futures_served_threeCalls :
    runFrom step (initial 0) threeCalls = some threeServed ∧
    threeServed.calls.map RequestCall.returned = [none, none, some ⟨0, [1, 2]⟩] ∧
    (∀ call ∈ threeServed.calls, ∀ r, call.returned = some r → call.answer = some r) ∧
    threeServed.heap = Heap.empty := by
  have hrun : runFrom step (initial 0) threeCalls = some threeServed := rfl
  have hfits : threeServed.CallsFit := by decide +kernel
  obtain ⟨hanswers, hempty⟩ := futures_served hrun hfits
  exact ⟨hrun, by decide +kernel, hanswers, hempty rfl (by decide +kernel)⟩

end Runs

end ClientMemory

end TbManager
