import Mathlib.Tactic
import Nodepool.Effect.Serial

/-!
`NodescanRequest` of `nodepool/driver/statemachine.py`: the state machine that gathers the host
keys of a node, over the calls of the socket, of the transport that speaks SSH, of the poll
object and of the clock.

The event that the thread of the transport sets is made and dropped with the transport, and is
a call here. Switching a socket between blocking and not blocking, and what is logged, are left
out.
-/

namespace Nodepool.Nodescan

open Effect Method

inductive ScanState where
  | start
  | connectingInit
  | negotiatingInit
  | connectingKey
  | negotiatingKey
  | complete
deriving DecidableEq, Repr

inductive NodescanErr where
  /-- `BlockingIOError`: the connection is delayed -/
  | blockingIoError
  | connectionTimeout
  | other
deriving DecidableEq, Repr

structure NodescanRequest where
  state : ScanState
  hostKeyChecking : Bool
  gatherHostkeys : Bool
  /-- an address of the unit tests -/
  fake : Bool
  /-- `setWorker` has been called -/
  worker : Bool
  timeout : ℕ
  startTime : ℕ
  connectStartTime : ℕ
  complete : Bool
  exception : Option NodescanErr
  keys : List String
  sock : Option ℕ
  transport : Option ℕ
  /-- set, as `keyIndex`, by the first connection that succeeds -/
  keyTypes : List String
  keyIndex : ℤ
  keyType : Option String
  /-- the indices of the key types that have been tried -/
  tried : List ℤ
deriving Repr

inductive NodescanCall where
  | monotonic
  | socket
  | connect (sock : ℕ)
  /-- `registerDescriptor` -/
  | register (sock : ℕ)
  /-- `unRegisterDescriptor` -/
  | unregister (sock : ℕ)
  /-- `getsockopt` of the error -/
  | getsockopt (sock : ℕ)
  | closeSocket (sock : ℕ)
  /-- `paramiko.transport.Transport` -/
  | transport (sock : ℕ)
  /-- the key types that the transport is to accept -/
  | setKeyTypes (transport : ℕ) (keyTypes : List String)
  | startClient (transport : ℕ)
  | eventIsSet
  /-- `_checkTransport` -/
  | checkTransport (transport : ℕ)
  | getKeyTypes (transport : ℕ)
  | getRemoteServerKey (transport : ℕ)
  | closeTransport (transport : ℕ)
deriving DecidableEq

@[reducible] def NodescanCall.Val : NodescanCall → Type
  | .monotonic | .socket | .transport _ | .getsockopt _ => ℕ
  | .eventIsSet => Bool
  | .getKeyTypes _ => List String
  | .getRemoteServerKey _ => Option String
  | _ => Unit

abbrev NodescanSig : Sig := ⟨NodescanCall, NodescanCall.Val, NodescanErr⟩

abbrev NodescanM : Type → Type := Method NodescanSig NodescanRequest

abbrev ncall (c : NodescanCall) : NodescanM c.Val := perform (S := NodescanSig) c

def setState (state : ScanState) : NodescanM Unit := assign fun r => { r with state := state }

/-- An attribute that is `None` has none of the methods that are called on it. -/
def present (field : NodescanRequest → Option ℕ) : NodescanM ℕ := do
  let r ← self
  match field r with
  | some n => pure n
  | none => throw .other

def closeTransport : NodescanM Unit := do
  let r ← self
  match r.transport with
  | none => pure ()
  | some transport => do
      tryCatch (ncall (.closeTransport transport)) fun _ => pure ()
      assign fun r => { r with transport := none }

def closeSocket : NodescanM Unit := do
  let r ← self
  match r.sock with
  | none => pure ()
  | some sock => do
      tryCatch (ncall (.unregister sock)) fun _ => pure ()
      tryCatch (ncall (.closeSocket sock)) fun _ => pure ()
      assign fun r => { r with sock := none }

/-- `_close` -/
def close : NodescanM Unit := do
  closeTransport
  closeSocket

/-- `fail`, with `cleanup` -/
def fail (e : NodescanErr) : NodescanM Unit := do
  assign fun r => { r with exception := some e }
  close
  assign fun r => { r with complete := true, state := .complete }

/-- `_checkTimeout` -/
def checkTimeout : NodescanM Unit := do
  let now ← ncall .monotonic
  let r ← self
  if r.startTime + r.timeout < now then throw .connectionTimeout else pure ()

def unregisterSock : NodescanM Unit := do
  let r ← self
  match r.sock with
  | none => pure ()
  | some sock => tryCatch (ncall (.unregister sock)) fun _ => pure ()

/-- `self.sock.connect`, which is not to block. -/
def connectSock (sock : ℕ) : NodescanM Unit :=
  tryCatch (ncall (.connect sock)) fun e =>
    if e = .blockingIoError then setState .connectingInit else throw e

/-- `_connect`. A connection that is made at once leaves the state as it is. -/
def connect : NodescanM Unit := do
  unregisterSock
  let sock ← ncall .socket
  assign fun r => { r with sock := some sock }
  connectSock sock
  let now ← ncall .monotonic
  assign fun r => { r with connectStartTime := now }
  ncall (.register sock)

/-- Only the key type that is tried is to be accepted. -/
def chooseKeyType (transport : ℕ) : NodescanM Unit := do
  let r ← self
  match r.keyType with
  | none => pure ()
  | some keyType => ncall (.setKeyTypes transport [keyType])

/-- `_start` -/
def startTransport : NodescanM Unit := do
  let sock ← present NodescanRequest.sock
  let transport ← ncall (.transport sock)
  assign fun r => { r with transport := some transport }
  chooseKeyType transport
  ncall (.startClient transport)

/-- `_nextKey` -/
def nextKey : NodescanM Unit := do
  close
  assign fun r => { r with keyIndex := r.keyIndex + 1 }
  let r ← self
  if r.keyTypes.length ≤ r.keyIndex then setState .complete
  else do
    assign fun r => { r with
      keyType := r.keyTypes[r.keyIndex.toNat]?
      tried := r.tried ++ [r.keyIndex] }
    connect
    setState .connectingKey

/-! ### The branches of `advance`, each with whether it returns -/

def advanceStart : NodescanM Bool := do
  let r ← self
  if r.state ≠ .start then pure false
  else if ¬ r.worker then throw .other
  else if ¬ r.hostKeyChecking then do
    setState .complete
    pure false
  else if r.fake then do
    assign fun r => { r with
      keys := if r.gatherHostkeys then ["ssh-rsa FAKEKEY"] else r.keys
      state := .complete }
    pure false
  else do
    connect
    pure false

/-- Give up a connection attempt, to try again with the next call. -/
def tryAgain : NodescanM Unit := do
  close
  setState .start

/-- Do not let a connection attempt last too long. -/
def limitConnection : NodescanM Bool := do
  checkTimeout
  let now ← ncall .monotonic
  let r ← self
  if r.connectStartTime + 10 ≤ now then do
    tryAgain
    pure true
  else pure true

def connectedInit : NodescanM Bool := do
  let r ← self
  if r.gatherHostkeys then do
    startTransport
    setState .negotiatingInit
    pure false
  else do
    setState .complete
    pure false

def advanceConnectingInit (socketReady : Bool) : NodescanM Bool := do
  let r ← self
  if r.state ≠ .connectingInit then pure false
  else if ¬ socketReady then limitConnection
  else do
    let sock ← present NodescanRequest.sock
    let eno ← ncall (.getsockopt sock)
    if eno ≠ 0 then do
      tryAgain
      checkTimeout
      pure true
    else connectedInit

/-- The first connection has succeeded: start over with the first key type. -/
def firstKey : NodescanM Bool := do
  let transport ← present NodescanRequest.transport
  let keyTypes ← ncall (.getKeyTypes transport)
  assign fun r => { r with keyTypes := keyTypes, keyIndex := -1 }
  nextKey
  pure false

def negotiatedInit : NodescanM Bool := do
  let checked ← attempt (do
    let transport ← present NodescanRequest.transport
    ncall (.checkTransport transport))
  match checked with
  | .ok () => firstKey
  | .error _ => do
      tryAgain
      checkTimeout
      connect
      pure true

def advanceNegotiatingInit : NodescanM Bool := do
  let r ← self
  if r.state ≠ .negotiatingInit then pure false
  else do
    let isSet ← ncall .eventIsSet
    if ¬ isSet then do
      checkTimeout
      pure true
    else negotiatedInit

def advanceConnectingKey (socketReady : Bool) : NodescanM Bool := do
  let r ← self
  if r.state ≠ .connectingKey then pure false
  else if ¬ socketReady then do
    checkTimeout
    pure true
  else do
    let sock ← present NodescanRequest.sock
    let eno ← ncall (.getsockopt sock)
    if eno ≠ 0 then do
      nextKey
      pure true
    else do
      startTransport
      setState .negotiatingKey
      pure false

def negotiatedKey : NodescanM Bool := do
  let checked ← attempt (do
    let transport ← present NodescanRequest.transport
    ncall (.checkTransport transport))
  match checked with
  | .ok () => pure false
  | .error _ => do
      nextKey
      pure false

def advanceNegotiatingKey : NodescanM Bool := do
  let r ← self
  if r.state ≠ .negotiatingKey then pure false
  else do
    let isSet ← ncall .eventIsSet
    if ¬ isSet then do
      checkTimeout
      pure true
    else negotiatedKey

/-- Still in the same state: the key is there. -/
def advanceKey : NodescanM Bool := do
  let r ← self
  if r.state ≠ .negotiatingKey then pure false
  else do
    let transport ← present NodescanRequest.transport
    let key ← ncall (.getRemoteServerKey transport)
    assign fun r => { r with keys := r.keys ++ key.toList }
    nextKey
    pure false

def advanceComplete : NodescanM Bool := do
  let r ← self
  if r.state ≠ .complete then pure false
  else do
    close
    assign fun r => { r with complete := true }
    pure false

/-- The branches one after another, until one of them returns. -/
def untilReturn : List (NodescanM Bool) → NodescanM Unit
  | [] => pure ()
  | branch :: branches => do
      let returned ← branch
      if returned then pure () else untilReturn branches

def advance (socketReady : Bool) : NodescanM Unit :=
  untilReturn [advanceStart, advanceConnectingInit socketReady, advanceNegotiatingInit,
    advanceConnectingKey socketReady, advanceNegotiatingKey, advanceKey, advanceComplete]

/-- What `NodescanWorker.run` does with a request that is not complete. -/
def drive (socketReady : Bool) : NodescanM Unit := do
  let r ← self
  if r.complete then pure () else tryCatch (advance socketReady) fail

/-! ### The world -/

/-- The clock, and the sockets and transports that the request has opened. -/
structure Net where
  now : ℕ
  sockets : ℕ
  openSockets : List ℕ
  transports : ℕ
  openTransports : List ℕ
deriving DecidableEq, Repr

/-- What a call may reply, and what becomes of the world; the clock does not go back. -/
def Net.Next (w : Net) : (c : NodescanCall) → NodescanSig.Reply c → Net → Prop
  | .monotonic, .ok (now : ℕ), w' => w.now ≤ now ∧ w' = { w with now := now }
  | .monotonic, .error _, _ => False
  | .socket, .ok (sock : ℕ), w' =>
      sock = w.sockets ∧
        w' = { w with sockets := w.sockets + 1, openSockets := sock :: w.openSockets }
  | .closeSocket sock, _, w' => w' = { w with openSockets := w.openSockets.erase sock }
  | .transport _, .ok (transport : ℕ), w' =>
      transport = w.transports ∧ w' =
        { w with transports := w.transports + 1, openTransports := transport :: w.openTransports }
  | .closeTransport transport, _, w' =>
      w' = { w with openTransports := w.openTransports.erase transport }
  | _, _, w' => w' = w

/-- The calls of `advance`, one after another, each with whether the socket is ready. -/
def scan : Serial NodescanSig Net NodescanRequest := ⟨Bool, drive, Net.Next⟩

/-- A request for a node, as it is constructed and given to the worker. -/
def NodescanRequest.new (hostKeyChecking gatherHostkeys fake : Bool) (timeout now : ℕ) :
    NodescanRequest where
  state := .start
  hostKeyChecking := hostKeyChecking
  gatherHostkeys := gatherHostkeys
  fake := fake
  worker := true
  timeout := timeout
  startTime := now
  connectStartTime := 0
  complete := false
  exception := none
  keys := []
  sock := none
  transport := none
  keyTypes := []
  keyIndex := 0
  keyType := none
  tried := []

def Net.init (now : ℕ) : Net := ⟨now, 0, [], 0, []⟩

end Nodepool.Nodescan
