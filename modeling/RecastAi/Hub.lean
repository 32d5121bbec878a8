-- The websocket hub (`internal/gateway/websocket`): the client sets of the
-- jobs, one Redis subscription for each watched job, the two pumps of a
-- client, the broadcast to a job's clients, and the shutdown. Each call is one
-- step of one goroutine; what runs under a mutex without a loop is one call.
import Mathlib.Data.List.Sort
import Mathlib.Logic.Function.Basic
import RecastAi.Interleaving

open call_programs

namespace recast_rules.hub

/-! ## The state -/

/-- A `*client`: the connection and the channel `send` are told apart by its `id`. -/
structure Client where
  id : Nat
  jobID : String
deriving DecidableEq

/-- A `*redis.PubSub`. -/
structure PubSub where
  id : Nat
  channel : String
deriving DecidableEq

/-- The goroutines that the hub starts with `go`. -/
inductive Goroutine where
  | writePump (c : Client)
  | readPump (c : Client)
  | subscriptionLoop (jobID : String) (ps : PubSub)
  | unregister (c : Client)
deriving DecidableEq

/-- `jobs` gives the map of a job, and `sets` the clients in a map: a loop over a map keeps its
map when the job has lost it. `closings` and `lateSends` tell which channels were closed, newest
first, and which were sent to after that. -/
structure State where
  jobs : String → Option Nat
  sets : Nat → List Client
  nextMap : Nat
  subs : String → Option PubSub
  openSubs : List PubSub
  nextSub : Nat
  nextClient : Nat
  queue : Client → List String
  closings : List Client
  lateSends : List Client
  panicked : Bool
  cancelled : Bool
  locked : Bool
  spawned : List Goroutine

/-- `NewHub`. -/
def newHub : State where
  jobs _ := none
  sets _ := []
  nextMap := 0
  subs _ := none
  openSubs := []
  nextSub := 0
  nextClient := 0
  queue _ := []
  closings := []
  lateSends := []
  panicked := false
  cancelled := false
  locked := false
  spawned := []

/-- The clients in the map of the job. A job without a map has none. -/
def State.clientsOf (s : State) (jobID : String) : List Client :=
  match s.jobs jobID with
  | none => []
  | some m => s.sets m

/-- `make(chan []byte, 64)`. -/
def sendCapacity : Nat := 64

/-! ## The calls -/

inductive Call where
  | upgrade
  | newClient (jobID : String)
  | join (c : Client)
  | subscribe (jobID channel : String)
  | leave (c : Client)
  | closeSend (c : Client)
  | closeConn (c : Client)
  | cleanupSub (jobID : String)
  | go (g : Goroutine)
  | start
  | receiveEvent (ps : PubSub)
  | clientsOf (jobID : String)
  | range (m : Nat)
  | next (m : Nat) (first visited : List Client)
  | trySend (c : Client) (data : String)
  | receive (c : Client)
  | writeMessage (c : Client) (data : Option String)
  | readMessage (c : Client)
  | cancel
  | closeSubs
  | lock
  | listClients
  | unlock

/-- What the select of `subscriptionLoop` gives. -/
inductive Received where
  | done
  | closed
  | message (payload : String)
  | nothing

/-- What the select of `writePump` gives. -/
inductive Selected where
  | message (data : String)
  | closed
  | tick

def Answer : Call → Type
  | .upgrade => Except String Unit
  | .newClient _ => Client
  | .subscribe _ _ => Option PubSub
  | .leave _ => Bool
  | .start => Option Goroutine
  | .receiveEvent _ => Received
  | .clientsOf _ => Option Nat
  | .range _ => List Client
  | .next _ _ _ => Option Client
  | .trySend _ _ => Bool
  | .receive _ => Selected
  | .writeMessage _ _ => Except String Unit
  | .readMessage _ => Except String Unit
  | .listClients => List Client
  | _ => Unit

/-- What the outside chooses at a call: what fails, which goroutine starts, which client a loop
over a map visits next, what arrives on the Redis channel, which case of a select is taken. -/
structure Outcome where
  fails : Bool := false
  pick : Nat := 0
  client : Option Client := none
  arrived : Option String := none
  ticks : Bool := false
  rank : Client → Nat := Client.id

def reply (o : Outcome) : Except String Unit := if o.fails then .error "error" else .ok ()

/-- The section of `register` under `h.mu`. -/
def State.join (s : State) (c : Client) : State :=
  match s.jobs c.jobID with
  | none => { s with
      jobs := Function.update s.jobs c.jobID (some s.nextMap)
      sets := Function.update s.sets s.nextMap [c]
      nextMap := s.nextMap + 1 }
  | some m => { s with sets := Function.update s.sets m (c :: (s.sets m).filter (· ≠ c)) }

/-- The section of `register` under `h.subsMu`. -/
def State.subscribe (s : State) (jobID channel : String) : Option PubSub × State :=
  match s.subs jobID with
  | some _ => (none, s)
  | none =>
    let ps : PubSub := ⟨s.nextSub, channel⟩
    (some ps, { s with
      subs := Function.update s.subs jobID (some ps)
      openSubs := ps :: s.openSubs
      nextSub := s.nextSub + 1 })

/-- The section of `unregister` under `h.mu`. It tells whether the subscription has to be torn
down. -/
def State.leave (s : State) (c : Client) : Bool × State :=
  match s.jobs c.jobID with
  | none => (false, s)
  | some m =>
    let clients := (s.sets m).filter (· ≠ c)
    if clients.length = 0 then
      (true, { s with
        sets := Function.update s.sets m clients
        jobs := Function.update s.jobs c.jobID none })
    else
      (false, { s with sets := Function.update s.sets m clients })

/-- `close(c.send)`. Closing a closed channel panics. -/
def State.closeSend (s : State) (c : Client) : State :=
  { s with closings := c :: s.closings, panicked := s.panicked || decide (c ∈ s.closings) }

/-- `cleanupSub`, all of it under `h.subsMu`. -/
def State.cleanupSub (s : State) (jobID : String) : State :=
  match s.subs jobID with
  | none => s
  | some ps => { s with
      openSubs := s.openSubs.filter (· ≠ ps)
      subs := Function.update s.subs jobID none }

/-- The send of `broadcast`: it panics on a closed channel and is skipped on a full one. -/
def State.trySend (s : State) (c : Client) (data : String) : Bool × State :=
  if c ∈ s.closings then
    (false, { s with lateSends := c :: s.lateSends, panicked := true })
  else if (s.queue c).length < sendCapacity then
    (true, { s with queue := Function.update s.queue c (s.queue c ++ [data]) })
  else
    (false, s)

/-- The select of `writePump`. With nothing to receive it waits for the ticker. -/
def State.receive (s : State) (c : Client) (ticks : Bool) : Selected × State :=
  if ticks then (.tick, s)
  else
    match s.queue c with
    | data :: rest => (.message data, { s with queue := Function.update s.queue c rest })
    | [] => if c ∈ s.closings then (.closed, s) else (.tick, s)

/-- The select of `subscriptionLoop`. -/
def State.receiveEvent (s : State) (ps : PubSub) (o : Outcome) : Received :=
  if s.cancelled && o.fails then .done
  else
    match o.arrived with
    | some payload => .message payload
    | none =>
      if ps ∉ s.openSubs then .closed
      else if s.cancelled then .done
      else .nothing

/-- The next client of a loop over map `m` that began when `first` were in it. Clients that
joined since then may be left out, the others may not. -/
def State.next (s : State) (m : Nat) (first visited : List Client) (wish : Option Client) :
    Option Client :=
  let rest := (s.sets m).filter (· ∉ visited)
  match rest.find? (some · = wish) with
  | some c => some c
  | none => rest.find? (· ∈ first)

/-- Every client of every map, in the order that the outside chooses. -/
def State.listClients (s : State) (rank : Client → Nat) : List Client :=
  (((List.range s.nextMap).flatMap s.sets)).insertionSort (fun a b => rank a ≤ rank b)

def answerHub (o : Outcome) (s : State) : (c : Call) → Answer c × State
  | .upgrade => (reply o, s)
  | .newClient jobID => (⟨s.nextClient, jobID⟩, { s with nextClient := s.nextClient + 1 })
  | .join c => ((), s.join c)
  | .subscribe jobID channel => s.subscribe jobID channel
  | .leave c => s.leave c
  | .closeSend c => ((), s.closeSend c)
  | .closeConn _ => ((), s)
  | .cleanupSub jobID => ((), s.cleanupSub jobID)
  | .go g => ((), { s with spawned := s.spawned ++ [g] })
  | .start => (s.spawned[o.pick]?, { s with spawned := s.spawned.eraseIdx o.pick })
  | .receiveEvent ps => (s.receiveEvent ps o, s)
  | .clientsOf jobID => (s.jobs jobID, s)
  | .range m => (s.sets m, s)
  | .next m first visited => (s.next m first visited o.client, s)
  | .trySend c data => s.trySend c data
  | .receive c => s.receive c o.ticks
  | .writeMessage _ _ => (reply o, s)
  | .readMessage _ => (reply o, s)
  | .cancel => ((), { s with cancelled := true })
  | .closeSubs => ((), { s with openSubs := [] })
  | .lock => ((), { s with locked := true })
  | .listClients => (s.listClients o.rank, s)
  | .unlock => ((), { s with locked := false })

def runtime : World Call Answer State Outcome := ⟨answerHub⟩

/-- The calls that wait while `Shutdown` holds `h.mu`. -/
def Call.takesMu : Call → Bool
  | .join _ => true
  | .leave _ => true
  | .clientsOf _ => true
  | .lock => true
  | _ => false

abbrev HubProg (α : Type) := Prog Call Answer α

def ask (c : Call) : HubProg (Answer c) := .call c .done

/-! ## The goroutines

Their loops have a bound on the rounds. Where it is used up the goroutine stops, without its
deferred calls, as one that is not scheduled any more. -/

/-- `cleanupSub` is deferred by the section under `h.mu`, so it runs last. -/
def unregister (c : Client) : HubProg Unit := do
  let emptied : Bool ← ask (.leave c)
  ask (.closeSend c)
  ask (.closeConn c)
  if emptied then
    ask (.cleanupSub c.jobID)

def eventsChannel (jobID : String) : String := "job:" ++ jobID ++ ":events"

def register (c : Client) : HubProg Unit := do
  ask (.join c)
  let ps : Option PubSub ← ask (.subscribe c.jobID (eventsChannel c.jobID))
  match ps with
  | some ps => ask (.go (.subscriptionLoop c.jobID ps))
  | none => pure ()

/-- The loop of `broadcast` over the map `m`. -/
def broadcastLoop (m : Nat) (first : List Client) (data : String) :
    Nat → List Client → HubProg Unit
  | 0, _ => pure ()
  | n + 1, visited => do
    let c : Option Client ← ask (.next m first visited)
    match c with
    | none => pure ()
    | some c =>
      let sent : Bool ← ask (.trySend c data)
      if sent then
        broadcastLoop m first data n (c :: visited)
      else
        ask (.go (.unregister c))
        broadcastLoop m first data n (c :: visited)

def broadcast (jobID data : String) (n : Nat) : HubProg Unit := do
  let clients : Option Nat ← ask (.clientsOf jobID)
  match clients with
  | none => pure ()
  | some m =>
    let first : List Client ← ask (.range m)
    broadcastLoop m first data n []

/-- `isEvent` tells the payloads that `json.Unmarshal` reads into a `models.JobEvent`. -/
def subscriptionLoop (isEvent : String → Bool) (jobID : String) (ps : PubSub) : Nat → HubProg Unit
  | 0 => pure ()
  | n + 1 => do
    let received : Received ← ask (.receiveEvent ps)
    match received with
    | .done => pure ()
    | .closed => pure ()
    | .nothing => subscriptionLoop isEvent jobID ps n
    | .message payload =>
      if isEvent payload then
        broadcast jobID payload n
        subscriptionLoop isEvent jobID ps n
      else
        subscriptionLoop isEvent jobID ps n

/-- Each way out runs the deferred `unregister`. The messages without data are the ping and the
close message. -/
def writePump (c : Client) : Nat → HubProg Unit
  | 0 => pure ()
  | n + 1 => do
    let selected : Selected ← ask (.receive c)
    match selected with
    | .closed =>
      let _ : Except String Unit ← ask (.writeMessage c none)
      unregister c
    | .message data =>
      let written : Except String Unit ← ask (.writeMessage c (some data))
      match written with
      | .error _ => unregister c
      | .ok () => writePump c n
    | .tick =>
      let written : Except String Unit ← ask (.writeMessage c none)
      match written with
      | .error _ => unregister c
      | .ok () => writePump c n

def readPump (c : Client) : Nat → HubProg Unit
  | 0 => pure ()
  | n + 1 => do
    let read : Except String Unit ← ask (.readMessage c)
    match read with
    | .error _ => unregister c
    | .ok () => readPump c n

/-- How a request to watch a job ends. -/
inductive Served where
  | refused (status : Nat) (body : String)
  | upgradeFailed (e : String)
  | watching (c : Client)

def handleWS (jobID : String) : HubProg Served :=
  if jobID = "" then
    pure (.refused 400 "\x7b\"error\":\"job id is required\"\x7d")
  else do
    let upgraded : Except String Unit ← ask .upgrade
    match upgraded with
    | .error e => pure (.upgradeFailed e)
    | .ok () =>
      let c : Client ← ask (.newClient jobID)
      register c
      ask (.go (.writePump c))
      ask (.go (.readPump c))
      pure (.watching c)

/-- The closing loop of `Shutdown`. -/
def closeClients : List Client → HubProg Unit
  | [] => pure ()
  | c :: cs => do
    ask (.closeSend c)
    ask (.closeConn c)
    closeClients cs

def shutdown : HubProg Unit := do
  ask .cancel
  ask .closeSubs
  ask .lock
  let clients : List Client ← ask .listClients
  closeClients clients
  ask .unlock

def Goroutine.prog (isEvent : String → Bool) (n : Nat) : Goroutine → HubProg Unit
  | .writePump c => hub.writePump c n
  | .readPump c => hub.readPump c n
  | .subscriptionLoop jobID ps => hub.subscriptionLoop isEvent jobID ps n
  | .unregister c => hub.unregister c

/-- A thread of the runtime, which runs one of the goroutines that were started with `go`. -/
def worker (isEvent : String → Bool) (n : Nat) : HubProg Unit := do
  let g : Option Goroutine ← ask .start
  match g with
  | none => pure ()
  | some g => g.prog isEvent n

abbrev Snap := Shot Call Answer State

/-- A goroutine that needs `h.mu` waits while `Shutdown` holds it. -/
def Possible (s : Snap) (_ : Nat) (c : Call) (_ : Outcome) : Prop :=
  c.takesMu = true → s.state.locked = false

end recast_rules.hub
