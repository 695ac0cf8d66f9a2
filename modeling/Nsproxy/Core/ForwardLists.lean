import Nsproxy.Core.TcpHandlers
import Nsproxy.Core.UdpAssoc
import Nsproxy.Lib.Sweep
import Nsproxy.Tcpdns.Workers

/-!
# The lists of forwards and workers

The core keeps its TCP forwards and its UDP forwards in two doubly linked
lists, and a pseudo connection of `tcpdns.c` keeps its workers in a third.
The links are in the objects themselves, and each list is edited by hand: the
forwards are unlinked predecessor first, the workers successor first.

A `Registry` is such a list in memory.  Next to it stand the objects which
were created and not destroyed yet; these only record what was called, and no
function reads them.  An object is named by its address, which may be used
again once the object is freed.  Destroying an object edits its own list and
no other one.

The association and the timer go through a list and destroy some of its
elements.  What they do to the rest of the context is what the functions over
a plain list of forwards do, and the pointers follow these functions.
-/

namespace Nsproxy.Core.ForwardLists

open Nsproxy.Conf
open Nsproxy.Lib.Linked
open Nsproxy.Lib.Sweep
open Nsproxy.Lib.Transition
open Nsproxy.Lwip.Opts
open Nsproxy.Skutils
open Nsproxy.Socks
open Nsproxy.Core.Memory (TcpForward)
open Nsproxy.Core.TcpHandlers (freshForward)
open Nsproxy.Core.UdpFlows
open Nsproxy.Core.UdpFrames
open Nsproxy.Core.UdpAssoc
open Nsproxy.Core.Routing
open Nsproxy.Tcpdns.Workers

/-! ## A list in memory -/

/-- A list of objects, and the objects which are in memory. -/
structure Registry (Data : Type) where
  list : Chain Nat Data
  live : List Nat

namespace Registry

variable {Data : Type}

/-- The empty list. -/
def empty : Registry Data where
  list := Chain.empty
  live := []

/-- A step which follows a pointer faults where there is no object. -/
def orFreed {Result : Type} (result : Option Result) :
    Except Fault Result :=
  match result with
  | none => .error .useAfterFree
  | some value => .ok value

/-- Make an object at this address, and insert it at the front. -/
def create (id : Nat) (data : Data) (registry : Registry Data) :
    Except Fault (Registry Data) :=
  match orFreed (registry.list.pushFront id data) with
  | .error fault => .error fault
  | .ok list => .ok { list := list, live := id :: registry.live }

/-- Unlink an object, predecessor first, and free it. -/
def destroy (id : Nat) (registry : Registry Data) :
    Except Fault (Registry Data) :=
  match orFreed (unlink registry.list id) with
  | .error fault => .error fault
  | .ok list => .ok { list := list, live := registry.live.erase id }

/-- Write the fields of an object, its links excepted. -/
def write (id : Nat) (data : Data) (registry : Registry Data) :
    Except Fault (Registry Data) :=
  match orFreed (registry.list.setData id data) with
  | .error fault => .error fault
  | .ok list => .ok { registry with list := list }

end Registry

/-! ## Forwards and workers -/

/-- The lists of the core, and one pseudo connection with its workers. -/
structure Lists where
  tcplst : Registry TcpForward
  udplst : Registry UdpForward
  master : Master
  workers : List Nat

/-- The program starts with empty lists. -/
def emptyLists : Lists where
  tcplst := Registry.empty
  udplst := Registry.empty
  master := tcpdnsCreate
  workers := []

/-- The lists after a change of the TCP forwards. -/
def Lists.onTcp
    (run : Registry TcpForward → Except Fault (Registry TcpForward))
    (lists : Lists) : Except Fault Lists :=
  match run lists.tcplst with
  | .error fault => .error fault
  | .ok tcplst => .ok { lists with tcplst := tcplst }

/-- The lists after a change of the UDP forwards. -/
def Lists.onUdp
    (run : Registry UdpForward → Except Fault (Registry UdpForward))
    (lists : Lists) : Except Fault Lists :=
  match run lists.udplst with
  | .error fault => .error fault
  | .ok udplst => .ok { lists with udplst := udplst }

/-- `tcp_forward_create`, at the address which `calloc` returns. -/
def tcpForwardCreate (id : Nat) (tcplst : Registry TcpForward) :
    Except Fault (Registry TcpForward) :=
  tcplst.create id { freshForward with pcb := false }

/-- `tcp_forward_destroy`, as far as the list is concerned. -/
def tcpForwardDestroy (id : Nat) (tcplst : Registry TcpForward) :
    Except Fault (Registry TcpForward) :=
  tcplst.destroy id

/-- A new `udp_forward`, for the flow of which `core_udp_new` is told. -/
def udpCalloc (id : Nat) (addr : IpAddr) (port : UInt16) : UdpForward where
  number := id
  proxy := none
  localIp := addr
  localPort := port
  rcvq := []
  gc := idleTimeout port

/-- `udp_forward_create`, at the address which `calloc` returns. -/
def udpForwardCreate (id : Nat) (addr : IpAddr) (port : UInt16)
    (udplst : Registry UdpForward) : Except Fault (Registry UdpForward) :=
  udplst.create id (udpCalloc id addr port)

/-- `udp_forward_destroy`, as far as the list is concerned. -/
def udpForwardDestroy (id : Nat) (udplst : Registry UdpForward) :
    Except Fault (Registry UdpForward) :=
  udplst.destroy id

/-- `tcpdns_send`: a worker is linked once it has its connection. -/
def workerCreate
    (conf : Nspconf) (dial : Dial) (data : List UInt8) (lists : Lists) :
    Except Fault (Except Errno Nat × Lists) :=
  match Nsproxy.Tcpdns.Workers.tcpdnsSend conf dial data lists.master with
  | .error fault => .error fault
  | .ok (.error errno, master) =>
      .ok (.error errno, { lists with master := master })
  | .ok (.ok size, master) =>
      .ok
        (.ok size,
          { lists with
            master := master
            workers := lists.master.allocated :: lists.workers })

/-- `tcpdns_worker_destroy`. -/
def workerDestroy (id : Nat) (lists : Lists) : Except Fault Lists :=
  match tcpdnsWorkerDestroy id lists.master with
  | .error fault => .error fault
  | .ok master =>
      .ok
        { lists with master := master, workers := lists.workers.erase id }

/-- Write the fields of a worker, its links excepted. -/
def workerWrite (id : Nat) (worker : Worker) (lists : Lists) :
    Except Fault Lists :=
  match lists.master.setWorker id worker with
  | .error fault => .error fault
  | .ok master => .ok { lists with master := master }

/-! ## New connections and flows -/

/--
`core_tcp_new`, given whether the chosen route makes a proxy object.  No
route touches the lists.
-/
def coreTcpNew (id : Nat) (connected : Bool)
    (tcplst : Registry TcpForward) : Except Fault (Registry TcpForward) :=
  match tcpForwardCreate id tcplst with
  | .error fault => .error fault
  | .ok created =>
      match created.write id freshForward with
      | .error fault => .error fault
      | .ok next =>
          if connected then
            next.write id { freshForward with proxy := true }
          else
            tcpForwardDestroy id next

/--
`core_udp_new`, given the proxy object of the chosen route; `none` leaves the
flow pending, and `some none` is a route which failed.
-/
def coreUdpNew
    (id : Nat) (addr : IpAddr) (port : UInt16)
    (route : Option (Option UdpProxy)) (udplst : Registry UdpForward) :
    Except Fault (Registry UdpForward) :=
  match udpForwardCreate id addr port udplst with
  | .error fault => .error fault
  | .ok created =>
      match route with
      | none => .ok created
      | some none => udpForwardDestroy id created
      | some (some proxy) =>
          created.write id
            { udpCalloc id addr port with proxy := some proxy }

/-! ## Walks -/

/-- What a walk comes to: a state, and the elements it visited. -/
abbrev Walked (World : Type) : Type := Except Fault (World × List Nat)

/-- What `gc-- == 0` leaves of a TCP forward. -/
def agedTcp (fwd : TcpForward) : Option TcpForward :=
  if fwd.gc = 0 then none else some { fwd with gc := fwd.gc - 1 }

/-- What `gc-- == 0` leaves of a UDP forward. -/
def agedUdp (fwd : UdpForward) : Option UdpForward :=
  if fwd.gc = 0 then none else some { fwd with gc := fwd.gc - 1 }

/-- The body of a loop of `core_gc_tmr`. -/
def gcVisit {Data : Type} (aged : Data → Option Data) (id : Nat)
    (fwd : Data) (registry : Registry Data) :
    Except Fault (Registry Data) :=
  match aged fwd with
  | none => registry.destroy id
  | some left => registry.write id left

/-- A loop of `core_gc_tmr`. -/
def gcLoop {Data : Type} (aged : Data → Option Data) (steps : Nat)
    (registry : Registry Data) : Walked (Registry Data) :=
  sweep (fun world : Registry Data => world.list.node) .useAfterFree
    (gcVisit aged) steps registry.list.head registry

/-- `core_gc_tmr`, with what each loop visited. -/
def coreGcTmr (steps : Nat) (lists : Lists) :
    Except Fault (Lists × List Nat × List Nat) :=
  match gcLoop agedTcp steps lists.tcplst with
  | .error fault => .error fault
  | .ok (tcplst, tcps) =>
      match gcLoop agedUdp steps lists.udplst with
      | .error fault => .error fault
      | .ok (udplst, udps) =>
          .ok
            ({ lists with tcplst := tcplst, udplst := udplst }, tcps, udps)

/--
The UDP forwards with the rest of the context, whose own list is not read.
-/
structure WithCore where
  core : CoreCtx
  udplst : Registry UdpForward

/-- Change the UDP forwards, in a context which has changed already. -/
def WithCore.onUdp (core : CoreCtx)
    (result : Except Fault (Registry UdpForward)) :
    Except Fault WithCore :=
  match result with
  | .error fault => .error fault
  | .ok udplst => .ok { core := core, udplst := udplst }

/-- The body of the loop after an association was lost. -/
def lostVisit (id : Nat) (fwd : UdpForward) (world : WithCore) :
    Except Fault WithCore :=
  if fwd.proxy.isSome then .ok world
  else WithCore.onUdp world.core (udpForwardDestroy id world.udplst)

/--
The body of the loop when the association succeeds.  An error in
`udp_proxy_output` destroys the forward on the way.
-/
def readyVisit (inet : Inet) (id : Nat) (fwd : UdpForward)
    (world : WithCore) : Except Fault WithCore :=
  if fwd.proxy.isSome then
    .ok world
  else
    match pendingProxy inet fwd world.core with
    | .error fault => .error fault
    | .ok (none, core) =>
        WithCore.onUdp core (udpForwardDestroy id world.udplst)
    | .ok (some proxy, core) =>
        match world.udplst.write id { fwd with proxy := some proxy } with
        | .error fault => .error fault
        | .ok connected =>
            if fwd.rcvq ≠ [] then
              match udpProxyOutput proxy
                  { fwd with proxy := some proxy } core with
              | (none, next) =>
                  WithCore.onUdp next (udpForwardDestroy id connected)
              | (some left, next) =>
                  WithCore.onUdp next (connected.write id left)
            else
              .ok { core := core, udplst := connected }

/-- A loop of `udp_assoc_io_event`. -/
def assocLoop
    (visit : Nat → UdpForward → WithCore → Except Fault WithCore)
    (steps : Nat) (world : WithCore) : Walked WithCore :=
  sweep (fun world : WithCore => world.udplst.list.node) .useAfterFree visit
    steps world.udplst.list.head world

/-- What `udp_assoc_io_event` does first when the association succeeds. -/
def readyCore (assoc : Assoc) (core : CoreCtx) : CoreCtx :=
  let cleared :=
    if assoc.self.phase = .forwarding then
      { assoc.self with
        events :=
          skutilsEvctl core.answers.epoll assoc.self.events epollout .clr }
    else
      assoc.self
  becomesReady { assoc with self := cleared } core

/-- `udp_assoc_io_event`, with what its loop visited. -/
def udpAssocIoEvent
    (inet : Inet) (events : EventMask) (steps : Nat) (world : WithCore) :
    Walked WithCore :=
  match world.core.udpassoc with
  | none => .error .useAfterFree
  | some assoc =>
      if events.meets (epollin ||| epollerr ||| epollhup) then
        assocLoop lostVisit steps { world with core := lost world.core }
      else
        assocLoop (readyVisit inet) steps
          { world with core := readyCore assoc world.core }

/-! ## A list and its objects -/

section Tracks

variable {Data : Type}

/-- The items of a list, whose addresses are the live objects. -/
structure Tracks (registry : Registry Data) (items : List (Nat × Data)) :
    Prop where
  represents : Represents registry.list items
  live : (items.map Prod.fst).Perm registry.live

theorem tracks_empty : Tracks (Registry.empty : Registry Data) [] where
  represents := represents_empty
  live := List.Perm.nil

variable {registry : Registry Data} {items front back : List (Nat × Data)}
  {id : Nat} {data : Data}

theorem Tracks.mem (tracks : Tracks registry items) (id : Nat) :
    id ∈ items.map Prod.fst ↔ id ∈ registry.live :=
  tracks.live.mem_iff

/-- A live object is an item of the list. -/
theorem Tracks.split
    (tracks : Tracks registry items) (member : id ∈ registry.live) :
    ∃ front data back, items = front ++ (id, data) :: back := by
  rcases List.mem_map.mp ((tracks.mem id).mpr member) with
    ⟨⟨same, data⟩, inside, rfl⟩
  rcases List.append_of_mem inside with ⟨front, back, split⟩
  exact ⟨front, data, back, split⟩

theorem Tracks.wellFormed (tracks : Tracks registry items) :
    WellFormed registry.list registry.live :=
  wellFormed_of_holds tracks.represents.holds tracks.mem

theorem Tracks.create
    (tracks : Tracks registry items) (fresh : id ∉ registry.live)
    (data : Data) :
    ∃ after,
      registry.create id data = .ok after ∧
        Tracks after ((id, data) :: items) ∧
        after.live = id :: registry.live := by
  have outside : id ∉ items.map Prod.fst := by
    rw [tracks.mem]
    exact fresh
  rcases tracks.represents.pushFront outside data with
    ⟨list, pushed, represents⟩
  refine ⟨⟨list, id :: registry.live⟩, ?_, ⟨represents, ?_⟩, rfl⟩
  · simp only [Registry.create, pushed, Registry.orFreed]
  · exact tracks.live.cons id

theorem Tracks.destroy
    (tracks : Tracks registry (front ++ (id, data) :: back)) :
    ∃ after,
      registry.destroy id = .ok after ∧ Tracks after (front ++ back) ∧
        after.live = registry.live.erase id := by
  rcases tracks.represents.unlink with ⟨list, removed, represents⟩
  refine ⟨⟨list, registry.live.erase id⟩, ?_, ⟨represents, ?_⟩, rfl⟩
  · simp only [Registry.destroy, removed, Registry.orFreed]
  · have erased := tracks.live.erase id
    rw [erase_keys tracks.represents.apart data] at erased
    exact erased

theorem Tracks.write
    (tracks : Tracks registry (front ++ (id, data) :: back))
    (new : Data) :
    ∃ after,
      registry.write id new = .ok after ∧
        Tracks after (front ++ (id, new) :: back) ∧
        after.live = registry.live := by
  rcases tracks.represents.setData new with ⟨list, set, represents⟩
  refine ⟨⟨list, registry.live⟩, ?_, ⟨represents, ?_⟩, rfl⟩
  · simp only [Registry.write, set, Registry.orFreed]
  · have same := tracks.live
    rw [List.map_append, List.map_cons] at same ⊢
    exact same

end Tracks

/-! ## The walks -/

section Walks

variable {Data State : Type}

/-- An action on items which depends on the item alone. -/
def always (left : Data → Option Data) (_id : Nat) (data : Data)
    (state : State) : Except Fault (Option Data × State) :=
  .ok (left data, state)

/-- What such an action leaves of a list. -/
def leftover (left : Data → Option Data) (items : List (Nat × Data)) :
    List (Nat × Data) :=
  items.flatMap fun item => leftOf item.1 (left item.2)

theorem sweepItems_always
    (left : Data → Option Data) (items : List (Nat × Data))
    (state : State) :
    sweepItems (always left) items state =
      .ok (leftover left items, state) := by
  induction items with
  | nil => rfl
  | cons item rest induction =>
      simp only [sweepItems, always, induction, leftover,
        List.flatMap_cons]

theorem simulates_gcVisit (aged : Data → Option Data) :
    Simulates (fun world : Registry Data => world.list.node)
      (gcVisit aged) (always aged)
      (fun world items (_ : Unit) => Tracks world items) where
  found tracks := tracks.represents.found
  visited := by
    intro world front id fwd back state left next tracks acted
    cases acted
    cases idle : aged fwd with
    | none =>
        rcases tracks.destroy with ⟨after, destroyed, kept, _⟩
        refine ⟨after, ?_, ?_⟩
        · simp only [gcVisit, idle]
          exact destroyed
        · rw [leftOf, Option.map_none, Option.toList_none,
            List.append_nil]
          exact kept
    | some left =>
        rcases tracks.write left with ⟨after, written, kept, _⟩
        refine ⟨after, ?_, ?_⟩
        · simp only [gcVisit, idle]
          exact written
        · rw [leftOf, Option.map_some, Option.toList_some,
            List.append_assoc]
          exact kept

/-- A loop of the timer ages every forward, and destroys the idle ones. -/
theorem gcLoop_spec
    (aged : Data → Option Data) {registry : Registry Data}
    {items : List (Nat × Data)} (tracks : Tracks registry items)
    {steps : Nat} (enough : items.length ≤ steps) :
    ∃ after,
      gcLoop aged steps registry = .ok (after, items.map Prod.fst) ∧
        Tracks after (leftover aged items) := by
  rcases (simulates_gcVisit aged).walk tracks
      (sweepItems_always aged items ()) enough with
    ⟨after, swept, kept⟩
  refine ⟨after, ?_, kept⟩
  rw [gcLoop, tracks.represents.head]
  exact swept

end Walks

/-- What the loop leaves of a forward after an association was lost. -/
def connectedOnly (fwd : UdpForward) : Option UdpForward :=
  if fwd.proxy.isSome then some fwd else none

/-- What the loop leaves of a forward when the association succeeds. -/
def readyAct (inet : Inet) (_id : Nat) (fwd : UdpForward)
    (core : CoreCtx) : Except Fault (Option UdpForward × CoreCtx) :=
  if fwd.proxy.isSome then .ok (some fwd, core)
  else settlePending inet fwd core

/-- The forwards in memory, next to the rest of the context. -/
def Beside (world : WithCore) (items : List (Nat × UdpForward))
    (core : CoreCtx) : Prop :=
  world.core = core ∧ Tracks world.udplst items

section Association

variable {udplst : Registry UdpForward}
  {front back : List (Nat × UdpForward)} {id : Nat} {fwd : UdpForward}

theorem onUdp_destroy
    (tracks : Tracks udplst (front ++ (id, fwd) :: back))
    (core : CoreCtx) :
    ∃ after,
      WithCore.onUdp core (udpForwardDestroy id udplst) = .ok after ∧
        Beside after (front ++ leftOf id none ++ back) core := by
  rcases tracks.destroy with ⟨after, destroyed, kept, _⟩
  refine ⟨⟨core, after⟩, ?_, rfl, ?_⟩
  · simp only [WithCore.onUdp, udpForwardDestroy, destroyed]
  · rw [leftOf, Option.map_none, Option.toList_none, List.append_nil]
    exact kept

theorem leftOf_some
    (front back : List (Nat × UdpForward)) (id : Nat) (fwd : UdpForward) :
    front ++ leftOf id (some fwd) ++ back = front ++ (id, fwd) :: back := by
  rw [leftOf, Option.map_some, Option.toList_some, List.append_assoc]
  rfl

theorem simulates_lostVisit :
    Simulates (fun world : WithCore => world.udplst.list.node) lostVisit
      (always connectedOnly) Beside where
  found beside := beside.2.represents.found
  visited := by
    rintro world front id fwd back core left next ⟨rfl, tracks⟩ acted
    cases acted
    by_cases connected : fwd.proxy.isSome = true
    · refine ⟨world, ?_, rfl, ?_⟩
      · rw [lostVisit, if_pos connected]
      · rw [connectedOnly, if_pos connected, leftOf_some]
        exact tracks
    · rw [lostVisit, if_neg connected, connectedOnly, if_neg connected]
      exact onUdp_destroy tracks world.core

theorem simulates_readyVisit (inet : Inet) :
    Simulates (fun world : WithCore => world.udplst.list.node)
      (readyVisit inet) (readyAct inet) Beside where
  found beside := beside.2.represents.found
  visited := by
    rintro world front id fwd back core left next ⟨rfl, tracks⟩ acted
    by_cases connected : fwd.proxy.isSome = true
    · rw [readyAct, if_pos connected] at acted
      cases acted
      refine ⟨world, ?_, rfl, ?_⟩
      · rw [readyVisit, if_pos connected]
      · rw [leftOf_some]
        exact tracks
    · rw [readyAct, if_neg connected] at acted
      rw [readyVisit, if_neg connected]
      cases made : pendingProxy inet fwd world.core with
      | error fault =>
          simp only [settlePending, made] at acted
          cases acted
      | ok result =>
          rcases result with ⟨proxy, core⟩
          cases proxy with
          | none =>
              simp only [settlePending, made] at acted
              cases acted
              exact onUdp_destroy tracks next
          | some proxy =>
              rcases tracks.write { fwd with proxy := some proxy } with
                ⟨udplst, written, kept, _⟩
              simp only [settlePending, made] at acted
              simp only [written]
              by_cases queued : fwd.rcvq ≠ []
              · rw [if_pos queued] at acted ⊢
                cases sent :
                    udpProxyOutput proxy
                      { fwd with proxy := some proxy } core with
                | mk after last =>
                    rw [sent] at acted
                    cases acted
                    cases left with
                    | none =>
                        exact onUdp_destroy kept next
                    | some left =>
                        rcases kept.write left with
                          ⟨final, rewritten, remains, _⟩
                        refine ⟨⟨next, final⟩, ?_, rfl, ?_⟩
                        · simp only [WithCore.onUdp, rewritten]
                        · rw [leftOf_some]
                          exact remains
              · rw [if_neg queued] at acted ⊢
                cases acted
                refine ⟨⟨next, udplst⟩, rfl, rfl, ?_⟩
                rw [leftOf_some]
                exact kept

/-- While there is an association, a pending forward is no fault. -/
theorem readyAct_total
    (inet : Inet) (id : Nat) (fwd : UdpForward) {core : CoreCtx}
    (present : core.udpassoc.isSome = true) :
    ∃ left next,
      readyAct inet id fwd core = .ok (left, next) ∧
        next.udpassoc.isSome = true := by
  by_cases connected : fwd.proxy.isSome = true
  · refine ⟨some fwd, core, ?_, present⟩
    rw [readyAct, if_pos connected]
  · rw [readyAct, if_neg connected]
    rcases Option.isSome_iff_exists.mp present with ⟨assoc, found⟩
    have made : ∃ result, pendingProxy inet fwd core = .ok result := by
      simp only [pendingProxy, found]
      split
      · exact ⟨_, rfl⟩
      · exact ⟨_, rfl⟩
    rcases made with ⟨⟨proxy, middle⟩, made⟩
    have settled :
        ∃ left next, settlePending inet fwd core = .ok (left, next) := by
      cases proxy with
      | none => exact ⟨none, middle, by simp only [settlePending, made]⟩
      | some proxy =>
          simp only [settlePending, made]
          split
          · exact ⟨_, _, rfl⟩
          · exact ⟨_, _, rfl⟩
    rcases settled with ⟨left, next, settled⟩
    refine ⟨left, next, settled, ?_⟩
    have admits :
        Admits inet core.conf (fun _ _ => True) fwd :=
      ⟨fun _ => trivial, fun _ => trivial⟩
    have connects := (settlePending_spec admits trivial settled).1
    rw [connects.undisturbed.udpassoc]
    exact present

end Association

/-- A loop of the association visits the forwards once, in order. -/
theorem assocLoop_spec
    {visit : Nat → UdpForward → WithCore → Except Fault WithCore}
    {act :
      Nat → UdpForward → CoreCtx →
        Except Fault (Option UdpForward × CoreCtx)}
    (simulates :
      Simulates (fun world : WithCore => world.udplst.list.node) visit act
        Beside)
    {world : WithCore} {items kept : List (Nat × UdpForward)}
    {last : CoreCtx} (tracks : Tracks world.udplst items)
    (acted : sweepItems act items world.core = .ok (kept, last))
    {steps : Nat} (enough : items.length ≤ steps) :
    ∃ after,
      assocLoop visit steps world = .ok (after, items.map Prod.fst) ∧
        Beside after kept last := by
  have start : Beside world items world.core := ⟨rfl, tracks⟩
  rcases simulates.walk start acted enough with ⟨after, swept, kept⟩
  refine ⟨after, ?_, kept⟩
  rw [assocLoop, tracks.represents.head]
  exact swept

/-- Where there is an association its events are handled without a fault. -/
theorem udpAssocIoEvent_spec
    (inet : Inet) (events : EventMask) {world : WithCore}
    {items : List (Nat × UdpForward)} (tracks : Tracks world.udplst items)
    (present : world.core.udpassoc.isSome = true)
    {steps : Nat} (enough : items.length ≤ steps) :
    ∃ after kept,
      udpAssocIoEvent inet events steps world =
          .ok (after, items.map Prod.fst) ∧
        Tracks after.udplst kept := by
  rcases Option.isSome_iff_exists.mp present with ⟨assoc, found⟩
  simp only [udpAssocIoEvent, found]
  by_cases broken : events.meets (epollin ||| epollerr ||| epollhup) = true
  · rw [if_pos broken]
    have start :
        Tracks (WithCore.mk (lost world.core) world.udplst).udplst
          items := tracks
    rcases assocLoop_spec simulates_lostVisit start
        (sweepItems_always connectedOnly items _) enough with
      ⟨after, looped, kept⟩
    exact ⟨after, _, looped, kept.2⟩
  · rw [if_neg broken]
    have ready : (readyCore assoc world.core).udpassoc.isSome = true := rfl
    have start :
        Tracks
          (WithCore.mk (readyCore assoc world.core) world.udplst).udplst
          items := tracks
    rcases sweepItems_total
        (fun id fwd _ present => readyAct_total inet id fwd present) items
        ready with
      ⟨kept, last, acted⟩
    rcases assocLoop_spec (simulates_readyVisit inet) start acted
        enough with
      ⟨after, looped, remains⟩
    exact ⟨after, kept, looped, remains.2⟩

/-! ## Workers -/

/--
The workers of a master.  A worker and its connection are numbered alike, and
the connection is there as long as the worker points to it.
-/
structure Employs (master : Master) (ids live : List Nat) : Prop where
  listed : Holds master.workers ids
  live : ids.Perm live
  young : ∀ id ∈ ids, id < master.allocated
  served :
    ∀ id worker conn,
      master.workers.data id = some worker →
      worker.proxy = some conn →
      conn = id ∧ (master.connections conn).isSome = true

theorem employs_tcpdnsCreate : Employs tcpdnsCreate [] [] where
  listed := holds_empty
  live := List.Perm.nil
  young := by
    intro id impossible
    cases impossible
  served := by
    intro id worker conn impossible
    cases impossible

section Workers

variable {master : Master} {ids live : List Nat} {id : Nat}

theorem Employs.wellFormed (employs : Employs master ids live) :
    WellFormed master.workers live :=
  wellFormed_of_holds employs.listed
    (fun _ => employs.live.mem_iff)

/-- `tcpdns_send` links a worker, or it fails and changes nothing. -/
theorem Employs.send
    (employs : Employs master ids live)
    (conf : Nspconf) (dial : Dial) (data : List UInt8) :
    (∃ errno,
      Nsproxy.Tcpdns.Workers.tcpdnsSend conf dial data master =
        .ok (.error errno, master)) ∨
    ∃ after,
      Nsproxy.Tcpdns.Workers.tcpdnsSend conf dial data master =
          .ok (.ok data.length, after) ∧
        Employs after (master.allocated :: ids)
          (master.allocated :: live) := by
  simp only [Nsproxy.Tcpdns.Workers.tcpdnsSend]
  split
  · exact .inl ⟨_, rfl⟩
  · split
    · exact .inl ⟨_, rfl⟩
    · apply Or.inr
      have fresh : master.allocated ∉ ids := by
        intro present
        exact Nat.lt_irrefl _ (employs.young _ present)
      rcases employs.listed.pushFront fresh
          { proxy := some master.allocated
            buffer :=
              UInt8.ofNat (data.length / 256) ::
                UInt8.ofNat (data.length % 256) :: data
            done := false } with
        ⟨workers, pushed, listed, new, others⟩
      rw [pushed]
      refine ⟨_, rfl, listed, employs.live.cons _, ?_, ?_⟩
      · intro other member
        rcases List.mem_cons.mp member with rfl | older
        · exact Nat.lt_succ_self _
        · exact Nat.lt_succ_of_lt (employs.young other older)
      · intro other worker conn found proxy
        by_cases own : other = master.allocated
        · subst own
          rw [new] at found
          cases found
          cases proxy
          exact ⟨rfl, by simp⟩
        · rw [others other own] at found
          rcases employs.served other worker conn found proxy with
            ⟨rfl, present⟩
          refine ⟨rfl, ?_⟩
          simp only [if_neg own]
          exact present

/-- A worker is destroyed with its connection, in any order. -/
theorem Employs.destroy
    (employs : Employs master ids live) (member : id ∈ ids) :
    ∃ after,
      tcpdnsWorkerDestroy id master = .ok after ∧
        Employs after (ids.erase id) (live.erase id) := by
  have unlinked :
      ∀ next : Master,
        next.workers = master.workers →
        next.allocated = master.allocated →
        (∀ other, other ≠ id →
          next.connections other = master.connections other) →
        ∃ after,
          unlinkWorker id next = .ok after ∧
            Employs after (ids.erase id) (live.erase id) := by
    intro next workers allocated connections
    have listed : Holds next.workers ids := workers ▸ employs.listed
    rcases listed.remove member with
      ⟨list, removed, kept, gone, others⟩
    refine ⟨{ next with workers := list }, ?_, kept,
      employs.live.erase id, ?_, ?_⟩
    · simp only [unlinkWorker, removed]
    · intro other inside
      exact allocated ▸ employs.young other (List.mem_of_mem_erase inside)
    · intro other worker conn found proxy
      have different : other ≠ id := by
        rintro rfl
        rw [gone] at found
        cases found
      rw [others other different, workers] at found
      rcases employs.served other worker conn found proxy with
        ⟨rfl, present⟩
      refine ⟨rfl, ?_⟩
      rw [connections conn different]
      exact present
  rcases employs.listed.found member with ⟨node, found⟩
  have data : master.workers.data id = some node.data := by
    rw [Chain.data, found, Option.map_some]
  simp only [tcpdnsWorkerDestroy, data]
  cases proxy : node.data.proxy with
  | none => exact unlinked master rfl rfl (fun _ _ => rfl)
  | some conn =>
      rcases employs.served id node.data conn data proxy with
        ⟨rfl, present⟩
      rcases Option.isSome_iff_exists.mp present with ⟨connection, there⟩
      simp only [proxyPut, there]
      by_cases single : connection.refcnt = 1
      · rw [if_pos single]
        apply unlinked (master.setConnection conn none) rfl rfl
        intro other different
        exact if_neg different
      · rw [if_neg single]
        apply unlinked (master.setConnection conn _) rfl rfl
        intro other different
        exact if_neg different

/-- A worker keeps its connection, or lets go of it. -/
theorem Employs.write
    (employs : Employs master ids live) (member : id ∈ ids)
    {worker : Worker}
    (kept :
      worker.proxy = none ∨
        worker.proxy = (master.workers.data id).bind (·.proxy)) :
    ∃ after,
      master.setWorker id worker = .ok after ∧
        Employs after ids live := by
  rcases employs.listed.setData member worker with
    ⟨list, set, listed, new, others⟩
  refine ⟨{ master with workers := list }, ?_, listed, employs.live,
    employs.young, ?_⟩
  · simp only [Master.setWorker, set]
  · intro other found conn data proxy
    by_cases own : other = id
    · subst own
      rw [new] at data
      cases data
      rcases kept with unset | same
      · rw [unset] at proxy
        cases proxy
      · rw [same] at proxy
        rcases Option.bind_eq_some_iff.mp proxy with ⟨old, before, held⟩
        exact employs.served other old conn before held
    · rw [others other own] at data
      exact employs.served other found conn data proxy

end Workers

/-! ## Runs -/

/-- What is done with the lists. -/
inductive Event where
  | tcpForwardCreate (id : Nat)
  | tcpForwardDestroy (id : Nat)
  | tcpWrite (id : Nat) (fwd : TcpForward)
  | udpForwardCreate (id : Nat) (addr : IpAddr) (port : UInt16)
  | udpForwardDestroy (id : Nat)
  | udpWrite (id : Nat) (fwd : UdpForward)
  | tcpdnsSend (conf : Nspconf) (dial : Dial) (data : List UInt8)
  | tcpdnsWorkerDestroy (id : Nat)
  | workerWrite (id : Nat) (worker : Worker)
  | coreTcpNew (id : Nat) (connected : Bool)
  | coreUdpNew (id : Nat) (addr : IpAddr) (port : UInt16)
      (route : Option (Option UdpProxy))
  | coreGcTmr (steps : Nat)
  | udpAssocIoEvent (inet : Inet) (events : EventMask) (steps : Nat)
      (core : CoreCtx)

/-- Handle an event. -/
def listStep (lists : Lists) : Event → Except Fault Lists
  | .tcpForwardCreate id => lists.onTcp (tcpForwardCreate id)
  | .tcpForwardDestroy id => lists.onTcp (tcpForwardDestroy id)
  | .tcpWrite id fwd => lists.onTcp (Registry.write id fwd)
  | .udpForwardCreate id addr port =>
      lists.onUdp (udpForwardCreate id addr port)
  | .udpForwardDestroy id => lists.onUdp (udpForwardDestroy id)
  | .udpWrite id fwd => lists.onUdp (Registry.write id fwd)
  | .tcpdnsSend conf dial data =>
      match workerCreate conf dial data lists with
      | .error fault => .error fault
      | .ok (_, after) => .ok after
  | .tcpdnsWorkerDestroy id => workerDestroy id lists
  | .workerWrite id worker => workerWrite id worker lists
  | .coreTcpNew id connected => lists.onTcp (coreTcpNew id connected)
  | .coreUdpNew id addr port route =>
      lists.onUdp (coreUdpNew id addr port route)
  | .coreGcTmr steps =>
      match coreGcTmr steps lists with
      | .error fault => .error fault
      | .ok (after, _) => .ok after
  | .udpAssocIoEvent inet events steps core =>
      match udpAssocIoEvent inet events steps ⟨core, lists.udplst⟩ with
      | .error fault => .error fault
      | .ok (after, _) => .ok { lists with udplst := after.udplst }

/--
`calloc` returns memory which is not in use.  Objects are destroyed, and
written, while they are there.  A walk may take as many steps as there are
objects, and the association has an object when it reports an event.
-/
def listEnabled (lists : Lists) : Event → Prop
  | .tcpForwardCreate id | .coreTcpNew id _ => id ∉ lists.tcplst.live
  | .tcpForwardDestroy id | .tcpWrite id _ => id ∈ lists.tcplst.live
  | .udpForwardCreate id _ _ | .coreUdpNew id _ _ _ =>
      id ∉ lists.udplst.live
  | .udpForwardDestroy id | .udpWrite id _ => id ∈ lists.udplst.live
  | .tcpdnsSend _ _ _ => True
  | .tcpdnsWorkerDestroy id => id ∈ lists.workers
  | .workerWrite id worker =>
      id ∈ lists.workers ∧
        (worker.proxy = none ∨
          worker.proxy =
            (lists.master.workers.data id).bind (·.proxy))
  | .coreGcTmr steps =>
      lists.tcplst.live.length ≤ steps ∧ lists.udplst.live.length ≤ steps
  | .udpAssocIoEvent _ _ steps core =>
      lists.udplst.live.length ≤ steps ∧ core.udpassoc.isSome = true

instance (lists : Lists) :
    (event : Event) → Decidable (listEnabled lists event)
  | .tcpForwardCreate id | .coreTcpNew id _ =>
      inferInstanceAs (Decidable (id ∉ lists.tcplst.live))
  | .tcpForwardDestroy id | .tcpWrite id _ =>
      inferInstanceAs (Decidable (id ∈ lists.tcplst.live))
  | .udpForwardCreate id _ _ | .coreUdpNew id _ _ _ =>
      inferInstanceAs (Decidable (id ∉ lists.udplst.live))
  | .udpForwardDestroy id | .udpWrite id _ =>
      inferInstanceAs (Decidable (id ∈ lists.udplst.live))
  | .tcpdnsSend _ _ _ => inferInstanceAs (Decidable True)
  | .tcpdnsWorkerDestroy id =>
      inferInstanceAs (Decidable (id ∈ lists.workers))
  | .workerWrite id worker =>
      inferInstanceAs
        (Decidable
          (id ∈ lists.workers ∧
            (worker.proxy = none ∨
              worker.proxy =
                (lists.master.workers.data id).bind (·.proxy))))
  | .coreGcTmr steps =>
      inferInstanceAs
        (Decidable
          (lists.tcplst.live.length ≤ steps ∧
            lists.udplst.live.length ≤ steps))
  | .udpAssocIoEvent _ _ steps core =>
      inferInstanceAs
        (Decidable
          (lists.udplst.live.length ≤ steps ∧
            core.udpassoc.isSome = true))

/-- Creations and destructions in any order. -/
def listSystem : System Fault Lists Event where
  initial lists := lists = emptyLists
  enabled := listEnabled
  step := listStep

instance (lists : Lists) (event : Event) :
    Decidable (listSystem.enabled lists event) :=
  inferInstanceAs (Decidable (listEnabled lists event))

/-- The invariant of the lists. -/
structure Sound (lists : Lists) : Prop where
  tcplst : ∃ items, Tracks lists.tcplst items
  udplst : ∃ items, Tracks lists.udplst items
  workers : ∃ ids, Employs lists.master ids lists.workers

theorem sound_emptyLists : Sound emptyLists where
  tcplst := ⟨[], tracks_empty⟩
  udplst := ⟨[], tracks_empty⟩
  workers := ⟨[], employs_tcpdnsCreate⟩

section Steps

variable {lists : Lists}

theorem Sound.onTcp
    (sound : Sound lists)
    {run : Registry TcpForward → Except Fault (Registry TcpForward)}
    (runs :
      ∃ after items, run lists.tcplst = .ok after ∧ Tracks after items) :
    ∃ after, lists.onTcp run = .ok after ∧ Sound after := by
  rcases runs with ⟨tcplst, items, ran, tracks⟩
  refine ⟨{ lists with tcplst := tcplst }, ?_, ⟨items, tracks⟩,
    sound.udplst, sound.workers⟩
  simp only [Lists.onTcp, ran]

theorem Sound.onUdp
    (sound : Sound lists)
    {run : Registry UdpForward → Except Fault (Registry UdpForward)}
    (runs :
      ∃ after items, run lists.udplst = .ok after ∧ Tracks after items) :
    ∃ after, lists.onUdp run = .ok after ∧ Sound after := by
  rcases runs with ⟨udplst, items, ran, tracks⟩
  refine ⟨{ lists with udplst := udplst }, ?_, sound.tcplst,
    ⟨items, tracks⟩, sound.workers⟩
  simp only [Lists.onUdp, ran]

section Registries

variable {Data : Type} {registry : Registry Data} {id : Nat}

/-- An object is created where memory is free. -/
theorem creates
    (tracked : ∃ items, Tracks registry items)
    (fresh : id ∉ registry.live) (data : Data) :
    ∃ after items, registry.create id data = .ok after ∧
      Tracks after items := by
  rcases tracked with ⟨items, tracks⟩
  rcases tracks.create fresh data with ⟨after, created, kept, _⟩
  exact ⟨after, _, created, kept⟩

theorem destroys
    (tracked : ∃ items, Tracks registry items)
    (member : id ∈ registry.live) :
    ∃ after items, registry.destroy id = .ok after ∧
      Tracks after items := by
  rcases tracked with ⟨items, tracks⟩
  rcases tracks.split member with ⟨front, data, back, rfl⟩
  rcases tracks.destroy with ⟨after, destroyed, kept, _⟩
  exact ⟨after, _, destroyed, kept⟩

theorem writes
    (tracked : ∃ items, Tracks registry items)
    (member : id ∈ registry.live) (new : Data) :
    ∃ after items, registry.write id new = .ok after ∧
      Tracks after items := by
  rcases tracked with ⟨items, tracks⟩
  rcases tracks.split member with ⟨front, data, back, rfl⟩
  rcases tracks.write new with ⟨after, written, kept, _⟩
  exact ⟨after, _, written, kept⟩

end Registries

theorem coreTcpNew_tracks
    {tcplst : Registry TcpForward} {id : Nat}
    (tracked : ∃ items, Tracks tcplst items) (fresh : id ∉ tcplst.live)
    (connected : Bool) :
    ∃ after items, coreTcpNew id connected tcplst = .ok after ∧
      Tracks after items := by
  rcases tracked with ⟨items, tracks⟩
  rcases tracks.create fresh { freshForward with pcb := false } with
    ⟨created, made, first, _⟩
  have listed :
      Tracks created
        ([] ++ (id, { freshForward with pcb := false }) :: items) := first
  rcases listed.write freshForward with ⟨next, written, second, _⟩
  simp only [coreTcpNew, tcpForwardCreate, made, written]
  cases connected with
  | true =>
      rw [if_pos rfl]
      rcases second.write { freshForward with proxy := true } with
        ⟨after, last, third, _⟩
      exact ⟨after, _, last, third⟩
  | false =>
      rw [if_neg Bool.false_ne_true]
      rcases second.destroy with ⟨after, last, third, _⟩
      exact ⟨after, _, last, third⟩

theorem coreUdpNew_tracks
    {udplst : Registry UdpForward} {id : Nat}
    (tracked : ∃ items, Tracks udplst items) (fresh : id ∉ udplst.live)
    (addr : IpAddr) (port : UInt16)
    (route : Option (Option UdpProxy)) :
    ∃ after items, coreUdpNew id addr port route udplst = .ok after ∧
      Tracks after items := by
  rcases tracked with ⟨items, tracks⟩
  rcases tracks.create fresh (udpCalloc id addr port) with
    ⟨created, made, first, _⟩
  have listed :
      Tracks created ([] ++ (id, udpCalloc id addr port) :: items) := first
  simp only [coreUdpNew, udpForwardCreate, made]
  cases route with
  | none => exact ⟨created, _, rfl, first⟩
  | some proxy =>
      cases proxy with
      | none =>
          rcases listed.destroy with ⟨after, last, second, _⟩
          exact ⟨after, _, last, second⟩
      | some proxy =>
          rcases listed.write
              { udpCalloc id addr port with proxy := some proxy } with
            ⟨after, last, second, _⟩
          exact ⟨after, _, last, second⟩

/-- Both loops of the timer visit what is there at their start. -/
theorem coreGcTmr_visits
    (sound : Sound lists) {steps : Nat}
    (tcps : lists.tcplst.live.length ≤ steps)
    (udps : lists.udplst.live.length ≤ steps) :
    ∃ after tcpVisited udpVisited,
      coreGcTmr steps lists = .ok (after, tcpVisited, udpVisited) ∧
        Sound after ∧
        (tcpVisited.Nodup ∧ tcpVisited.Perm lists.tcplst.live) ∧
        (udpVisited.Nodup ∧ udpVisited.Perm lists.udplst.live) := by
  rcases sound.tcplst with ⟨tcpItems, tcpTracks⟩
  rcases sound.udplst with ⟨udpItems, udpTracks⟩
  have tcpEnough : tcpItems.length ≤ steps := by
    rw [← List.length_map (f := Prod.fst), tcpTracks.live.length_eq]
    exact tcps
  have udpEnough : udpItems.length ≤ steps := by
    rw [← List.length_map (f := Prod.fst), udpTracks.live.length_eq]
    exact udps
  rcases gcLoop_spec agedTcp tcpTracks tcpEnough with
    ⟨tcplst, tcpLoop, tcpKept⟩
  rcases gcLoop_spec agedUdp udpTracks udpEnough with
    ⟨udplst, udpLoop, udpKept⟩
  refine ⟨{ lists with tcplst := tcplst, udplst := udplst }, _, _, ?_,
    ⟨⟨_, tcpKept⟩, ⟨_, udpKept⟩, sound.workers⟩,
    ⟨tcpTracks.represents.holds.distinct, tcpTracks.live⟩,
    udpTracks.represents.holds.distinct, udpTracks.live⟩
  simp only [coreGcTmr, tcpLoop, udpLoop]

/-- The loops over the association visit what is there at their start. -/
theorem udpAssocIoEvent_visits
    (sound : Sound lists) (inet : Inet) (events : EventMask)
    {steps : Nat} {core : CoreCtx}
    (enough : lists.udplst.live.length ≤ steps)
    (present : core.udpassoc.isSome = true) :
    ∃ after visited,
      udpAssocIoEvent inet events steps ⟨core, lists.udplst⟩ =
          .ok (after, visited) ∧
        Sound { lists with udplst := after.udplst } ∧
        visited.Nodup ∧ visited.Perm lists.udplst.live := by
  rcases sound.udplst with ⟨items, tracks⟩
  have few : items.length ≤ steps := by
    rw [← List.length_map (f := Prod.fst), tracks.live.length_eq]
    exact enough
  have start : Tracks (WithCore.mk core lists.udplst).udplst items :=
    tracks
  rcases udpAssocIoEvent_spec inet events start present few with
    ⟨after, kept, handled, remains⟩
  exact ⟨after, _, handled,
    ⟨sound.tcplst, ⟨kept, remains⟩, sound.workers⟩,
    tracks.represents.holds.distinct, tracks.live⟩

/-- No event follows a pointer to a freed object, and all keep the lists. -/
theorem Sound.step
    (sound : Sound lists) {event : Event}
    (permitted : listEnabled lists event) :
    ∃ after, listStep lists event = .ok after ∧ Sound after := by
  cases event with
  | tcpForwardCreate id =>
      exact sound.onTcp (creates sound.tcplst permitted _)
  | tcpForwardDestroy id =>
      exact sound.onTcp (destroys sound.tcplst permitted)
  | tcpWrite id fwd =>
      exact sound.onTcp (writes sound.tcplst permitted fwd)
  | udpForwardCreate id addr port =>
      exact sound.onUdp (creates sound.udplst permitted _)
  | udpForwardDestroy id =>
      exact sound.onUdp (destroys sound.udplst permitted)
  | udpWrite id fwd =>
      exact sound.onUdp (writes sound.udplst permitted fwd)
  | tcpdnsSend conf dial data =>
      rcases sound.workers with ⟨ids, employs⟩
      rcases employs.send conf dial data with
        ⟨errno, failed⟩ | ⟨master, sent, made⟩
      · refine ⟨lists, ?_, sound⟩
        simp only [listStep, workerCreate, failed]
      · refine
          ⟨{ lists with
              master := master
              workers := lists.master.allocated :: lists.workers },
            ?_, sound.tcplst, sound.udplst, ⟨_, made⟩⟩
        simp only [listStep, workerCreate, sent]
  | tcpdnsWorkerDestroy id =>
      rcases sound.workers with ⟨ids, employs⟩
      rcases employs.destroy (employs.live.mem_iff.mpr permitted) with
        ⟨master, destroyed, kept⟩
      refine
        ⟨{ lists with
            master := master, workers := lists.workers.erase id },
          ?_, sound.tcplst, sound.udplst, ⟨_, kept⟩⟩
      simp only [listStep, workerDestroy, destroyed]
  | workerWrite id worker =>
      rcases sound.workers with ⟨ids, employs⟩
      rcases employs.write (employs.live.mem_iff.mpr permitted.1)
          permitted.2 with
        ⟨master, written, kept⟩
      refine ⟨{ lists with master := master }, ?_, sound.tcplst,
        sound.udplst, ⟨_, kept⟩⟩
      simp only [listStep, workerWrite, written]
  | coreTcpNew id connected =>
      exact sound.onTcp
        (coreTcpNew_tracks sound.tcplst permitted connected)
  | coreUdpNew id addr port route =>
      exact sound.onUdp
        (coreUdpNew_tracks sound.udplst permitted addr port route)
  | coreGcTmr steps =>
      rcases coreGcTmr_visits sound permitted.1 permitted.2 with
        ⟨after, tcps, udps, collected, kept, _⟩
      refine ⟨after, ?_, kept⟩
      simp only [listStep, collected]
  | udpAssocIoEvent inet events steps core =>
      rcases udpAssocIoEvent_visits sound inet events permitted.1
          permitted.2 with
        ⟨after, visited, handled, kept, _⟩
      refine ⟨{ lists with udplst := after.udplst }, ?_, kept⟩
      simp only [listStep, handled]

end Steps

theorem sound_of_reachable
    {lists : Lists} (reachable : listSystem.Reachable lists) :
    Sound lists := by
  apply reachable.invariant
  · intro first begins
    exact begins ▸ sound_emptyLists
  · intro source event target sound permitted handled
    rcases sound.step permitted with ⟨after, stepped, kept⟩
    have same : Except.ok target = Except.ok after :=
      handled.symm.trans stepped
    cases same
    exact kept

/-! ## Failed creations -/

section Failed

variable {Data : Type} {registry : Registry Data} {id : Nat}

/-- Destroying an object which was just created restores the list. -/
theorem create_destroy
    (tracked : ∃ items, Tracks registry items)
    (fresh : id ∉ registry.live) {data : Data}
    {created : Registry Data}
    (made : registry.create id data = .ok created) :
    created.destroy id = .ok registry := by
  rcases tracked with ⟨items, tracks⟩
  have outside : id ∉ items.map Prod.fst := by
    rw [tracks.mem]
    exact fresh
  rcases tracks.represents.pushFront outside data with
    ⟨list, pushed, _⟩
  simp only [Registry.create, pushed, Registry.orFreed] at made
  cases made
  have restored :=
    unlink_pushFront tracks.represents.holds outside pushed
  simp only [Registry.destroy, restored, Registry.orFreed,
    List.erase_cons_head]

/-- Writing a new object is creating it with what is written. -/
theorem create_write
    {data new : Data} {created : Registry Data}
    (made : registry.create id data = .ok created) :
    created.write id new = registry.create id new := by
  cases pushed : registry.list.pushFront id data with
  | none =>
      simp only [Registry.create, pushed, Registry.orFreed] at made
      cases made
  | some list =>
      simp only [Registry.create, pushed, Registry.orFreed] at made
      cases made
      simp only [Registry.write, Registry.create,
        setData_pushFront pushed]

end Failed

theorem coreTcpNew_failed
    {tcplst : Registry TcpForward} {id : Nat}
    (tracked : ∃ items, Tracks tcplst items)
    (fresh : id ∉ tcplst.live) :
    coreTcpNew id false tcplst = .ok tcplst := by
  rcases creates tracked fresh { freshForward with pcb := false } with
    ⟨created, _, made, _⟩
  rcases creates tracked fresh freshForward with ⟨next, _, written, _⟩
  have wrote := (create_write made).trans written
  simp only [coreTcpNew, tcpForwardCreate, made, wrote,
    if_neg Bool.false_ne_true]
  exact create_destroy tracked fresh written

theorem coreUdpNew_failed
    {udplst : Registry UdpForward} {id : Nat}
    (tracked : ∃ items, Tracks udplst items)
    (fresh : id ∉ udplst.live) (addr : IpAddr) (port : UInt16) :
    coreUdpNew id addr port (some none) udplst = .ok udplst := by
  rcases creates tracked fresh (udpCalloc id addr port) with
    ⟨created, _, made, _⟩
  simp only [coreUdpNew, udpForwardCreate, made]
  exact create_destroy tracked fresh made

/-! ## The pointers follow the plain lists -/

/-- The forwards of a plain list, by their addresses. -/
def numbered (fwds : List UdpForward) : List (Nat × UdpForward) :=
  fwds.map fun fwd => (fwd.number, fwd)

theorem map_numbered (fwds : List UdpForward) :
    (numbered fwds).map Prod.fst = fwds.map (·.number) := by
  rw [numbered, List.map_map]
  rfl

theorem leftover_numbered
    {left : UdpForward → Option UdpForward}
    (same : ∀ fwd kept, left fwd = some kept → kept.number = fwd.number)
    (fwds : List UdpForward) :
    leftover left (numbered fwds) = numbered (fwds.filterMap left) := by
  induction fwds with
  | nil => rfl
  | cons fwd rest induction =>
      have unfolded :
          leftover left (numbered (fwd :: rest)) =
            leftOf fwd.number (left fwd) ++
              leftover left (numbered rest) := rfl
      rw [unfolded, induction]
      cases kept : left fwd with
      | none =>
          rw [List.filterMap_cons_none kept]
          rfl
      | some after =>
          rw [List.filterMap_cons_some kept, ← same fwd after kept]
          rfl

/-- `core_gc_tmr` on the pointers does what it does on the plain list. -/
theorem gcLoop_refines
    {udplst : Registry UdpForward} {core : CoreCtx}
    (tracks : Tracks udplst (numbered core.udplst)) {steps : Nat}
    (enough : core.udplst.length ≤ steps) :
    ∃ after,
      gcLoop agedUdp steps udplst =
          .ok (after, core.udplst.map (·.number)) ∧
        Tracks after
          (numbered (Nsproxy.Core.UdpFlows.coreGcTmr core).udplst) := by
  have few : (numbered core.udplst).length ≤ steps := by
    rw [numbered, List.length_map]
    exact enough
  rcases gcLoop_spec agedUdp tracks few with ⟨after, looped, kept⟩
  rw [map_numbered] at looped
  refine ⟨after, looped, ?_⟩
  rw [leftover_numbered] at kept
  · exact kept
  · intro fwd aged left
    simp only [agedUdp] at left
    split at left
    · cases left
    · cases left
      rfl

theorem settlePending_number
    {inet : Inet} {fwd kept : UdpForward} {core next : CoreCtx}
    (settled : settlePending inet fwd core = .ok (some kept, next)) :
    kept.number = fwd.number := by
  simp only [settlePending] at settled
  split at settled
  · cases settled
  · cases settled
  · next proxy middle made =>
      split at settled
      · simp only [udpProxyOutput] at settled
        split at settled
        · cases settled
          rfl
        · cases settled
      · cases settled
        rfl

/-- The loop over a plain list is the abstract walk. -/
theorem sweepItems_settle
    {inet : Inet} {fwds kept : List UdpForward} {core last : CoreCtx}
    (settled : settle inet fwds core = .ok (kept, last)) :
    sweepItems (readyAct inet) (numbered fwds) core =
      .ok (numbered kept, last) := by
  induction fwds generalizing core kept last with
  | nil =>
      cases settled
      rfl
  | cons fwd rest induction =>
      have unfolded :
          numbered (fwd :: rest) = (fwd.number, fwd) :: numbered rest := rfl
      rw [unfolded]
      simp only [settle] at settled
      simp only [sweepItems, readyAct]
      by_cases connected : fwd.proxy.isSome = true
      · rw [if_pos connected] at settled ⊢
        cases behind : settle inet rest core with
        | error fault =>
            rw [behind] at settled
            cases settled
        | ok result =>
            rcases result with ⟨others, final⟩
            rw [behind] at settled
            cases settled
            simp only [induction behind]
            rfl
      · rw [if_neg connected] at settled ⊢
        cases pending : settlePending inet fwd core with
        | error fault =>
            rw [pending] at settled
            cases settled
        | ok result =>
            rcases result with ⟨left, next⟩
            rw [pending] at settled
            simp only at settled
            cases behind : settle inet rest next with
            | error fault =>
                rw [behind] at settled
                cases settled
            | ok result =>
                rcases result with ⟨others, final⟩
                rw [behind] at settled
                cases settled
                simp only [induction behind]
                cases left with
                | none => rfl
                | some after =>
                    have same := settlePending_number pending
                    have first :
                        numbered ((some after).toList ++ others) =
                          (after.number, after) :: numbered others := rfl
                    rw [first, same]
                    rfl

theorem filterMap_connectedOnly (fwds : List UdpForward) :
    fwds.filterMap connectedOnly =
      fwds.filter fun fwd => fwd.proxy.isSome := by
  induction fwds with
  | nil => rfl
  | cons fwd rest induction =>
      by_cases connected : fwd.proxy.isSome = true
      · have kept : connectedOnly fwd = some fwd := if_pos connected
        rw [List.filterMap_cons_some kept, induction]
        simp [connected]
      · have gone : connectedOnly fwd = none := if_neg connected
        rw [List.filterMap_cons_none gone, induction]
        simp [connected]

/-- What `settle` makes of the forwards when the association succeeds. -/
theorem settle_of_assocSucceeds
    {inet : Inet} {core after : CoreCtx} {assoc : Assoc}
    (found : core.udpassoc = some assoc)
    (handled : assocSucceeds inet core = .ok after) :
    ∃ kept last,
      settle inet core.udplst (readyCore assoc core) = .ok (kept, last) ∧
        after = { last with udplst := kept } := by
  simp only [assocSucceeds, found] at handled
  split at handled
  · cases handled
  · next kept last settled =>
      cases handled
      exact ⟨kept, last, settled, rfl⟩

/--
`udp_assoc_io_event` on the pointers visits each forward of the plain list
once, in its order, and leaves the context and the forwards which the plain
function leaves.
-/
theorem udpAssocIoEvent_refines
    (inet : Inet) (events : EventMask) {world : WithCore}
    {after : CoreCtx}
    (tracks : Tracks world.udplst (numbered world.core.udplst))
    (handled :
      Nsproxy.Core.UdpFlows.udpAssocIoEvent inet events world.core =
        .ok after)
    {steps : Nat} (enough : world.core.udplst.length ≤ steps) :
    ∃ last,
      udpAssocIoEvent inet events steps world =
          .ok (last, world.core.udplst.map (·.number)) ∧
        Tracks last.udplst (numbered after.udplst) ∧
        after = { last.core with udplst := after.udplst } := by
  have few : (numbered world.core.udplst).length ≤ steps := by
    rw [numbered, List.length_map]
    exact enough
  simp only [Nsproxy.Core.UdpFlows.udpAssocIoEvent] at handled
  simp only [udpAssocIoEvent]
  cases found : world.core.udpassoc with
  | none =>
      split at handled
      · simp only [assocLost, found] at handled
        cases handled
      · simp only [assocSucceeds, found] at handled
        cases handled
  | some assoc =>
      have present : world.core.udpassoc.isSome = true := by
        rw [found]
        rfl
      by_cases broken :
          events.meets (epollin ||| epollerr ||| epollhup) = true
      · rw [if_pos broken, assocLost_eq present] at handled
        cases handled
        simp only [if_pos broken]
        have start :
            Tracks (WithCore.mk (lost world.core) world.udplst).udplst
              (numbered world.core.udplst) := tracks
        rcases assocLoop_spec simulates_lostVisit start
            (sweepItems_always connectedOnly _ _) few with
          ⟨last, looped, core, kept⟩
        rw [map_numbered] at looped
        refine ⟨last, looped, ?_, ?_⟩
        · rw [leftover_numbered, filterMap_connectedOnly] at kept
          · exact kept
          · intro fwd same left
            simp only [connectedOnly] at left
            split at left
            · cases left
              rfl
            · cases left
        · rw [core]
      · rw [if_neg broken] at handled
        simp only [if_neg broken]
        rcases settle_of_assocSucceeds found handled with
          ⟨kept, final, settled, rfl⟩
        have start :
            Tracks
              (WithCore.mk (readyCore assoc world.core)
                world.udplst).udplst
              (numbered world.core.udplst) := tracks
        rcases assocLoop_spec (simulates_readyVisit inet) start
            (sweepItems_settle settled) few with
          ⟨last, looped, core, remains⟩
        rw [map_numbered] at looped
        refine ⟨last, looped, remains, ?_⟩
        rw [core]

/-- `core_udp_new` on the pointers does what it does on the plain list. -/
theorem coreUdpNew_refines
    {inet : Inet} {addr : IpAddr} {port : UInt16}
    {udplst : Registry UdpForward} {core after : CoreCtx}
    (tracks : Tracks udplst (numbered core.udplst))
    (fresh : core.nextForward ∉ udplst.live)
    (handled :
      Nsproxy.Core.UdpFlows.coreUdpNew inet addr port core = .ok after) :
    ∃ route last,
      coreUdpNew core.nextForward addr port route udplst = .ok last ∧
        Tracks last (numbered after.udplst) := by
  have started (next : CoreCtx) :
      (coreStartUdpAssoc next).udplst = next.udplst := by
    simp only [coreStartUdpAssoc]
    split
    · rfl
    · split
      · rfl
      · split
        · rfl
        · rfl
  rcases tracks.create fresh
      (udpCalloc core.nextForward addr port) with
    ⟨created, made, first, _⟩
  have listed :
      Tracks created
        ([] ++ (core.nextForward, udpCalloc core.nextForward addr port) ::
          numbered core.udplst) := first
  simp only [Nsproxy.Core.UdpFlows.coreUdpNew] at handled
  split at handled
  · cases handled
    refine ⟨none, created, ?_, ?_⟩
    · simp only [coreUdpNew, udpForwardCreate, made]
    · rw [started]
      exact first
  · split at handled
    · cases handled
    · next last routed =>
        cases handled
        refine ⟨some none, udplst,
          coreUdpNew_failed ⟨_, tracks⟩ fresh addr port, ?_⟩
        rw [(udpRoute_spec routed).1.undisturbed.udplst]
        exact tracks
    · next proxy last routed =>
        cases handled
        rcases listed.write
            { udpCalloc core.nextForward addr port with
              proxy := some proxy } with
          ⟨next, written, second, _⟩
        refine ⟨some (some proxy), next, ?_, ?_⟩
        · simp only [coreUdpNew, udpForwardCreate, made, written]
        · rw [(udpRoute_spec routed).1.undisturbed.udplst]
          exact second

/-! ## The lists stay well formed -/

/-- A walk visits these elements, each of them once. -/
def VisitsOnce (live visited : List Nat) : Prop :=
  visited.Nodup ∧ ∀ id, id ∈ visited ↔ id ∈ live

/--
In every run of creations and destructions the three lists are well formed,
and their elements are the objects which were created and not destroyed; no
event that may occur follows a pointer to a freed object; a creation which
fails leaves its list as it was; the walks of the timer and of the association
end, having visited what was there at their start, each element once.
-/
theorem lists_stay_well_formed
    {lists : Lists} (reachable : listSystem.Reachable lists) :
    (WellFormed lists.tcplst.list lists.tcplst.live ∧
      WellFormed lists.udplst.list lists.udplst.live ∧
      WellFormed lists.master.workers lists.workers) ∧
    (∀ event, listSystem.enabled lists event →
      ∃ after, listSystem.step lists event = .ok after) ∧
    (∀ id, id ∉ lists.tcplst.live →
      coreTcpNew id false lists.tcplst = .ok lists.tcplst) ∧
    (∀ id addr port, id ∉ lists.udplst.live →
      coreUdpNew id addr port (some none) lists.udplst =
        .ok lists.udplst) ∧
    (∀ conf dial data errno after,
      workerCreate conf dial data lists = .ok (.error errno, after) →
      after = lists) ∧
    (∀ steps, lists.tcplst.live.length ≤ steps →
      lists.udplst.live.length ≤ steps →
      ∃ after tcpVisited udpVisited,
        coreGcTmr steps lists = .ok (after, tcpVisited, udpVisited) ∧
          VisitsOnce lists.tcplst.live tcpVisited ∧
          VisitsOnce lists.udplst.live udpVisited) ∧
    (∀ (inet : Inet) events steps (core : CoreCtx),
      lists.udplst.live.length ≤ steps →
      core.udpassoc.isSome = true →
      ∃ after visited,
        udpAssocIoEvent inet events steps ⟨core, lists.udplst⟩ =
            .ok (after, visited) ∧
          VisitsOnce lists.udplst.live visited) := by
  have sound := sound_of_reachable reachable
  rcases sound.tcplst with ⟨tcpItems, tcpTracks⟩
  rcases sound.udplst with ⟨udpItems, udpTracks⟩
  rcases sound.workers with ⟨ids, employs⟩
  refine ⟨⟨tcpTracks.wellFormed, udpTracks.wellFormed,
    employs.wellFormed⟩, ?_, ?_, ?_, ?_, ?_, ?_⟩
  · intro event permitted
    rcases sound.step permitted with ⟨after, stepped, _⟩
    exact ⟨after, stepped⟩
  · intro id fresh
    exact coreTcpNew_failed sound.tcplst fresh
  · intro id addr port fresh
    exact coreUdpNew_failed sound.udplst fresh addr port
  · intro conf dial data errno after failed
    rcases employs.send conf dial data with
      ⟨other, refused⟩ | ⟨master, sent, _⟩
    · simp only [workerCreate, refused] at failed
      cases failed
      rfl
    · simp only [workerCreate, sent] at failed
      cases failed
  · intro steps tcps udps
    rcases coreGcTmr_visits sound tcps udps with
      ⟨after, tcpVisited, udpVisited, collected, _, ofTcp, ofUdp⟩
    exact ⟨after, tcpVisited, udpVisited, collected,
      ⟨ofTcp.1, fun _ => ofTcp.2.mem_iff⟩,
      ofUdp.1, fun _ => ofUdp.2.mem_iff⟩
  · intro inet events steps core enough present
    rcases udpAssocIoEvent_visits sound inet events enough present with
      ⟨after, visited, handled, _, distinct, same⟩
    exact ⟨after, visited, handled, distinct, fun _ => same.mem_iff⟩

/-- An association, which waits for the answer of its server. -/
def sampleAssociation : CoreCtx :=
  { coreInit sampleConf with
    udpassoc :=
      some
        { number := 0
          self :=
            { events := epollin
              addr := []
              port := 0
              type := .udpAssociate
              phase := .recvReply
              hsbuff := []
              relay := none } } }

/-- A dial which connects. -/
def sampleQuery : Event :=
  .tcpdnsSend sampleConf
    { connected := true, epoll := true, stream := [] } [7]

/--
Four TCP forwards, of which one cannot be connected, one is destroyed between
two others, and one is taken by the timer; four UDP forwards, of which the
lost association takes the two in the middle, which have no proxy; and three
workers, of which the second one is destroyed.
-/
def sampleEvents : List Event :=
  [.tcpForwardCreate 4, .coreTcpNew 9 true, .coreTcpNew 2 false,
    .coreTcpNew 6 true, .coreTcpNew 5 true, .tcpForwardDestroy 9,
    .coreUdpNew 4 gatewayIp 53 (some (some .tcpdns)),
    .udpForwardCreate 7 gatewayIp 123, .udpForwardCreate 3 gatewayIp 9,
    .coreUdpNew 8 gatewayIp 53 (some (some .tcpdns)),
    .udpAssocIoEvent sampleInet epollhup 4 sampleAssociation,
    sampleQuery, sampleQuery, sampleQuery, .tcpdnsWorkerDestroy 1,
    .tcpWrite 6 { freshForward with gc := 0 }, .coreGcTmr 4]

theorem lists_stay_well_formed_sample :
    ∃ lists : Lists,
      (lists.tcplst.live = [5, 4] ∧ lists.udplst.live = [8, 4] ∧
        lists.workers = [2, 0]) ∧
      (WellFormed lists.tcplst.list [5, 4] ∧
        WellFormed lists.udplst.list [8, 4] ∧
        WellFormed lists.master.workers [2, 0]) ∧
      coreTcpNew 6 false lists.tcplst = .ok lists.tcplst ∧
      (∃ after tcpVisited udpVisited,
        coreGcTmr 2 lists = .ok (after, tcpVisited, udpVisited) ∧
          VisitsOnce [5, 4] tcpVisited ∧
          VisitsOnce [8, 4] udpVisited) ∧
      ∃ after visited,
        udpAssocIoEvent sampleInet epollhup 2
            ⟨sampleAssociation, lists.udplst⟩ =
          .ok (after, visited) ∧
        VisitsOnce [8, 4] visited := by
  have passes :
      (listSystem.replay emptyLists sampleEvents).map
        (fun lists =>
          decide
            (lists.tcplst.live = [5, 4] ∧ lists.udplst.live = [8, 4] ∧
              lists.workers = [2, 0])) =
        some true := by
    decide +kernel
  have start : listSystem.Reachable emptyLists := .start rfl
  rcases start.exists_replay passes with ⟨lists, reachable, test⟩
  rcases of_decide_eq_true test with ⟨tcps, udps, workers⟩
  rcases lists_stay_well_formed reachable with
    ⟨formed, _, failed, _, _, ticked, lost⟩
  rw [tcps, udps, workers] at formed
  rw [tcps, udps] at ticked
  rw [udps] at lost
  have fresh : 6 ∉ lists.tcplst.live := by
    rw [tcps]
    decide
  exact
    ⟨lists, ⟨tcps, udps, workers⟩, formed, failed 6 fresh,
      ticked 2 (by decide) (by decide),
      lost sampleInet epollhup 2 sampleAssociation (by decide) rfl⟩

end Nsproxy.Core.ForwardLists
