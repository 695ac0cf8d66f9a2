import Mathlib.Tactic.Common
import Nsproxy.Conf
import Nsproxy.Lib.Linked
import Nsproxy.Lib.Transition
import Nsproxy.Lwip.Opts
import Nsproxy.Skutils
import Nsproxy.Handshake.Socket

/-!
# DNS over TCP

The pseudo connection of `tcpdns.c`.  A master has one worker for every query,
in a doubly linked list, and an `eventfd` on which a worker posts when it is
done.  Workers and connections are named by the number of the allocation which
made them.

A connection knows its user, the worker, by a pointer.  `proxy_put` frees the
connection with its last reference, and with it the registration of its
callback.  An access to a worker or to a connection which was freed, or
through a null pointer, is a fault.
-/

namespace Nsproxy.Tcpdns.Workers

open Nsproxy.Conf
open Nsproxy.Lib.Linked
open Nsproxy.Lib.Transition
open Nsproxy.Lwip.Opts
open Nsproxy.Skutils
open Nsproxy.Handshake.Socket

/-! ## The event counter -/

/-- An `eventfd`, and whether it was made with `EFD_SEMAPHORE`. -/
structure Eventfd where
  counter : Nat
  semaphore : Bool
deriving DecidableEq, Repr

/-- The largest value which the counter takes. -/
def eventfdMax : Nat := 2 ^ 64 - 2

namespace Eventfd

/-- A `write` which does not block; `none` is the error. -/
def write (evfd : Eventfd) (value : Nat) : Option Eventfd :=
  if evfd.counter + value ≤ eventfdMax then
    some { evfd with counter := evfd.counter + value }
  else
    none

/-- A `read` which does not block, with the value it hands over. -/
def read (evfd : Eventfd) : Option (Nat × Eventfd) :=
  if evfd.counter = 0 then
    none
  else if evfd.semaphore then
    some (1, { evfd with counter := evfd.counter - 1 })
  else
    some (evfd.counter, { evfd with counter := 0 })

end Eventfd

/-! ## State -/

/--
`struct tcpdns_worker` without its links.  `buffer` holds the first `nbuffer`
bytes of the array.
-/
structure Worker where
  proxy : Option Nat
  buffer : List UInt8
  done : Bool
deriving DecidableEq, Repr

/-- The size of the array `buffer`. -/
def bufferSize : Nat := 4096

/--
A connection to the nameserver: its references, its user, and what the
nameserver sends and the worker has not read.
-/
structure Connection where
  proxy : Proxy
  refcnt : Nat
  userp : Nat
  unread : List UInt8
deriving DecidableEq, Repr

/-- `struct proxy_tcpdns`, with the memory it refers to. -/
structure Master where
  evfd : Eventfd
  workers : Chain Nat Worker
  connections : Nat → Option Connection
  allocated : Nat

/-- `tcpdns_create`, when the kernel makes the `eventfd`. -/
def tcpdnsCreate : Master where
  evfd := { counter := 0, semaphore := true }
  workers := Chain.empty
  connections _ := none
  allocated := 0

/-- `E2BIG`, `EINVAL` and `EIO`. -/
def e2big : Errno := .other 7
def einval : Errno := .other 22
def eio : Errno := .other 5

/-! ## Workers -/

/-- Write to a connection. -/
def Master.setConnection
    (master : Master) (conn : Nat) (connection : Option Connection) :
    Master :=
  { master with
    connections := fun other =>
      if other = conn then connection else master.connections other }

/-- `proxy_put`. -/
def proxyPut (conn : Nat) (master : Master) : Except Fault Master :=
  match master.connections conn with
  | none => .error .useAfterFree
  | some connection =>
      if connection.refcnt = 1 then
        .ok (master.setConnection conn none)
      else
        .ok
          (master.setConnection conn
            (some { connection with refcnt := connection.refcnt - 1 }))

/-- Write to a worker. -/
def Master.setWorker (master : Master) (id : Nat) (worker : Worker) :
    Except Fault Master :=
  match master.workers.setData id worker with
  | none => .error .useAfterFree
  | some workers => .ok { master with workers := workers }

/-- `tcpdns_worker_destroy`, after its connection is closed. -/
def unlinkWorker (id : Nat) (master : Master) : Except Fault Master :=
  match master.workers.remove id with
  | none => .error .useAfterFree
  | some workers => .ok { master with workers := workers }

/-- `tcpdns_worker_destroy`. -/
def tcpdnsWorkerDestroy (id : Nat) (master : Master) :
    Except Fault Master :=
  match master.workers.data id with
  | none => .error .useAfterFree
  | some worker =>
      match worker.proxy with
      | none => unlinkWorker id master
      | some conn =>
          match proxyPut conn master with
          | .error fault => .error fault
          | .ok next => unlinkWorker id next

/-- What the calls of an event find. -/
structure WorkerCalls where
  arrival : Arrival
  send : SendAnswer
  epoll : Bool
deriving DecidableEq, Repr

/-- The length in front of a message. -/
def messageSize : List UInt8 → Nat
  | high :: low :: _ => high.toNat * 256 + low.toNat
  | _ => 0

/-- A complete answer: the connection is closed and the master is noticed. -/
def finishWorker
    (id conn : Nat) (worker : Worker) (master : Master) :
    Except Fault Master :=
  match proxyPut conn master with
  | .error fault => .error fault
  | .ok closed =>
      match closed.setWorker id
          { worker with proxy := none, done := true } with
      | .error fault => .error fault
      | .ok marked =>
          match marked.evfd.write 1 with
          | none => tcpdnsWorkerDestroy id marked
          | some evfd => .ok { marked with evfd := evfd }

/-- The answer of the nameserver to a `recv` of the worker. -/
def workerRecv
    (calls : WorkerCalls) (connection : Connection) (worker : Worker) :
    RecvAnswer :=
  connection.proxy.recv (calls.arrival.answer connection.unread)
    (bufferSize - worker.buffer.length)

/-- The branch `EPOLLIN` of `tcpdns_worker_handle_event`. -/
def workerInput
    (calls : WorkerCalls) (id conn : Nat) (worker : Worker)
    (connection : Connection) (master : Master) : Except Fault Master :=
  match workerRecv calls connection worker with
  | .err errno =>
      if errno = .eagain then .ok master
      else tcpdnsWorkerDestroy id master
  | .data [] => tcpdnsWorkerDestroy id master
  | .data (byte :: more) =>
      let read :=
        master.setConnection conn
          (some
            { connection with
              unread := connection.unread.drop (more.length + 1) })
      let filled := { worker with buffer := worker.buffer ++ byte :: more }
      if 2 < filled.buffer.length ∧
          messageSize filled.buffer + 2 ≤ filled.buffer.length then
        finishWorker id conn filled read
      else
        read.setWorker id filled

/-- The branch `EPOLLOUT` of `tcpdns_worker_handle_event`. -/
def workerOutput
    (calls : WorkerCalls) (id conn : Nat) (worker : Worker)
    (connection : Connection) (master : Master) : Except Fault Master :=
  match connection.proxy.send calls.send worker.buffer.length with
  | .error errno =>
      if errno = .eagain then .ok master
      else tcpdnsWorkerDestroy id master
  | .ok 0 => tcpdnsWorkerDestroy id master
  | .ok (more + 1) =>
      let rest := worker.buffer.drop (more + 1)
      match master.setWorker id { worker with buffer := rest } with
      | .error fault => .error fault
      | .ok next =>
          if rest = [] then
            .ok
              (next.setConnection conn
                (some
                  { connection with
                    proxy :=
                      connection.proxy.evctl calls.epoll epollin .upd }))
          else
            .ok next

/-- `tcpdns_worker_handle_event`. -/
def tcpdnsWorkerHandleEvent
    (calls : WorkerCalls) (id : Nat) (event : EventMask)
    (master : Master) : Except Fault Master :=
  match master.workers.data id with
  | none => .error .useAfterFree
  | some worker =>
      if event.meets epollerr then
        tcpdnsWorkerDestroy id master
      else if event.meets epollin ∨ event.meets epollout then
        match worker.proxy with
        | none => .error .useAfterFree
        | some conn =>
            match master.connections conn with
            | none => .error .useAfterFree
            | some connection =>
                if event.meets epollin then
                  workerInput calls id conn worker connection master
                else
                  workerOutput calls id conn worker connection master
      else
        .ok master

/-! ## Operations of the master -/

/-- A connection of `tcpdns_send`; a direct one needs no handshake. -/
def queryProxy (type : ProxyType) (accepted : Bool) : Proxy :=
  match type with
  | .socks5 | .http =>
      { phase := .handshake
        events := skutilsEvctl accepted 0#32 epollout .upd }
  | .direct =>
      { phase := .forwarding
        events := skutilsEvctl accepted 0#32 (epollout ||| epollin) .upd }

/-- How the attempt to connect ends, and what the nameserver will send. -/
structure Dial where
  connected : Bool
  epoll : Bool
  stream : List UInt8
deriving DecidableEq, Repr

/-- `tcpdns_send`. -/
def tcpdnsSend
    (conf : Nspconf) (dial : Dial) (data : List UInt8) (master : Master) :
    Except Fault (Except Errno Nat × Master) :=
  if bufferSize < data.length + 2 then
    .ok (.error e2big, master)
  else if servnameMaxlen < conf.dnssrv.length ∨ dial.connected = false then
    .ok (.error einval, master)
  else
    let worker : Worker :=
      { proxy := some master.allocated
        buffer :=
          UInt8.ofNat (data.length / 256) ::
            UInt8.ofNat (data.length % 256) :: data
        done := false }
    match master.workers.pushFront master.allocated worker with
    | none => .error .useAfterFree
    | some workers =>
        .ok
          (.ok data.length,
            { master with
              workers := workers
              connections := fun other =>
                if other = master.allocated then
                  some
                    { proxy := queryProxy conf.proxytype dial.epoll
                      refcnt := 1
                      userp := master.allocated
                      unread := dial.stream }
                else
                  master.connections other
              allocated := master.allocated + 1 })

/-- The walk of `tcpdns_recv`; there are no more workers than allocations. -/
def findDone (master : Master) : Option (Option Nat) :=
  master.workers.search (·.done) master.allocated master.workers.head

/-- `tcpdns_recv`, after the `eventfd` was read. -/
def takeAnswer (size : Nat) (master : Master) :
    Except Fault (Except Errno (List UInt8) × Master) :=
  match findDone master with
  | none => .error .useAfterFree
  | some none => .ok (.error .eagain, master)
  | some (some id) =>
      match master.workers.data id with
      | none => .error .useAfterFree
      | some worker =>
          if worker.buffer.length < 2 then
            .error .assertion
          else
            match tcpdnsWorkerDestroy id master with
            | .error fault => .error fault
            | .ok next =>
                .ok (.ok ((worker.buffer.drop 2).take size), next)

/-- `tcpdns_recv`. -/
def tcpdnsRecv (size : Nat) (master : Master) :
    Except Fault (Except Errno (List UInt8) × Master) :=
  match master.evfd.read with
  | none => .ok (.error .eagain, master)
  | some (value, evfd) =>
      if value ≠ 1 then
        .ok (.error eio, { master with evfd := evfd })
      else
        takeAnswer size { master with evfd := evfd }

/-! ## Runs -/

/-- What happens to a worker. -/
inductive Entry where
  /-- It reads these bytes. -/
  | read (id : Nat) (bytes : List UInt8)
  /-- It is marked done. -/
  | finished (id : Nat)
  /-- `tcpdns_recv` hands over its answer. -/
  | returned (id size : Nat) (answer : List UInt8)
deriving DecidableEq, Repr

structure Session where
  master : Master
  journal : List Entry

/-- A call of an operation, or an event of a connection. -/
inductive Turn where
  | send (data : List UInt8) (dial : Dial)
  /-- The handshake of a connection goes on, and may end. -/
  | shakes (conn : Nat) (proxy : Proxy)
  /-- A connection tells its user of events. -/
  | event (conn : Nat) (event : EventMask) (calls : WorkerCalls)
  | recv (size : Nat)
deriving DecidableEq, Repr

/-- The entry of what an event reads. -/
def readEntries
    (event : EventMask) (calls : WorkerCalls) (connection : Connection)
    (worker : Worker) : List Entry :=
  if event.meets epollin ∧ ¬ event.meets epollerr then
    match workerRecv calls connection worker with
    | .data (byte :: more) => [.read connection.userp (byte :: more)]
    | _ => []
  else
    []

/-- The entries of an event. -/
def eventEntries
    (event : EventMask) (calls : WorkerCalls) (connection : Connection)
    (before after : Master) : List Entry :=
  match before.workers.data connection.userp with
  | none => []
  | some worker =>
      readEntries event calls connection worker ++
        if (after.workers.data connection.userp).any (·.done) then
          [.finished connection.userp]
        else
          []

/-- The entry of a `tcpdns_recv`. -/
def recvEntries
    (size : Nat) (before : Master) (result : Except Errno (List UInt8)) :
    List Entry :=
  match findDone before, result with
  | some (some id), .ok answer => [.returned id size answer]
  | _, _ => []

/-- One turn. -/
def tcpdnsStep (conf : Nspconf) (session : Session) (turn : Turn) :
    Except Fault Session :=
  match turn with
  | .send data dial =>
      match tcpdnsSend conf dial data session.master with
      | .error fault => .error fault
      | .ok (_, next) => .ok { session with master := next }
  | .shakes conn proxy =>
      match session.master.connections conn with
      | none => .error .useAfterFree
      | some connection =>
          .ok
            { session with
              master :=
                session.master.setConnection conn
                  (some { connection with proxy := proxy }) }
  | .event conn event calls =>
      match session.master.connections conn with
      | none => .error .useAfterFree
      | some connection =>
          match tcpdnsWorkerHandleEvent calls connection.userp event
              session.master with
          | .error fault => .error fault
          | .ok next =>
              .ok
                { master := next
                  journal :=
                    session.journal ++
                      eventEntries event calls connection session.master
                        next }
  | .recv size =>
      match tcpdnsRecv size session.master with
      | .error fault => .error fault
      | .ok (result, next) =>
          .ok
            { master := next
              journal :=
                session.journal ++
                  recvEntries size session.master result }

/-- A connection which was not freed may call back. -/
def tcpdnsEnabled (session : Session) : Turn → Prop
  | .send _ _ | .recv _ => True
  | .shakes conn _ =>
      ∃ connection,
        session.master.connections conn = some connection ∧
          connection.proxy.phase = .handshake
  | .event conn _ _ =>
      ∃ connection, session.master.connections conn = some connection

instance (session : Session) (turn : Turn) :
    Decidable (tcpdnsEnabled session turn) :=
  match turn with
  | .send _ _ | .recv _ => inferInstanceAs (Decidable True)
  | .shakes conn _ =>
      match found : session.master.connections conn with
      | none => .isFalse (by simp [tcpdnsEnabled, found])
      | some connection =>
          if shaking : connection.proxy.phase = .handshake then
            .isTrue ⟨connection, found, shaking⟩
          else
            .isFalse (by simp [tcpdnsEnabled, found, shaking])
  | .event conn _ _ =>
      match found : session.master.connections conn with
      | none => .isFalse (by simp [tcpdnsEnabled, found])
      | some connection => .isTrue ⟨connection, found⟩

/-- The runs of one master. -/
def tcpdnsSystem (conf : Nspconf) : System Fault Session Turn where
  initial session := session = { master := tcpdnsCreate, journal := [] }
  enabled := tcpdnsEnabled
  step := tcpdnsStep conf

instance (conf : Nspconf) (session : Session) (turn : Turn) :
    Decidable ((tcpdnsSystem conf).enabled session turn) :=
  inferInstanceAs (Decidable (tcpdnsEnabled session turn))

end Nsproxy.Tcpdns.Workers
