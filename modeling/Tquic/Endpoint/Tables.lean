import Tquic.Base.SortedMap
import Tquic.Token

/-!
# The tables of an endpoint

The connection table, the routes from datagrams to connections, the work queues, the timers and the
buffer for early 0-RTT packets. A connection is its protocol state, unknown here, with its index
and a flag for each queue.
-/

namespace Tquic

open SortedMap

structure FourTuple where
  localAddr : SocketAddr
  remoteAddr : SocketAddr
  deriving DecidableEq

structure PacketInfo where
  src : SocketAddr
  dst : SocketAddr
  deriving DecidableEq

/-! ## Connections -/

inductive Work where
  | tickable
  | sendable
  deriving DecidableEq, Repr

structure Conn (C : Type) where
  index : Option ℕ
  flags : Work → Bool
  core : C

structure ConnectionTable (C : Type) where
  conns : SortedMap ℕ (Conn C)
  nextIndex : ℕ
  lt_nextIndex : ∀ e ∈ conns, e.1 < nextIndex

namespace ConnectionTable

variable {C : Type}

def new : ConnectionTable C := ⟨.empty, 0, by simp⟩

def len (table : ConnectionTable C) : ℕ := table.conns.length

def get? (table : ConnectionTable C) (idx : ℕ) : Option (Conn C) := table.conns.get? idx

def insert (table : ConnectionTable C) (core : C) : ConnectionTable C where
  conns := table.conns.insert table.nextIndex ⟨none, fun _ => false, core⟩
  nextIndex := table.nextIndex + 1
  lt_nextIndex := by
    intro e he
    rcases SortedMap.mem_insert.mp he with rfl | ⟨he, -⟩
    · exact Nat.lt_succ_self _
    · exact (table.lt_nextIndex e he).trans (Nat.lt_succ_self _)

def update (table : ConnectionTable C) (idx : ℕ) (f : Conn C → Conn C) : ConnectionTable C :=
  { table with
    conns := table.conns.modify idx f
    lt_nextIndex := by
      intro e he
      obtain ⟨conn, hconn, -⟩ := SortedMap.mem_modify.mp he
      exact table.lt_nextIndex (e.1, conn) hconn }

def remove (table : ConnectionTable C) (idx : ℕ) : ConnectionTable C :=
  { table with
    conns := table.conns.erase idx
    lt_nextIndex := fun e he => table.lt_nextIndex e (SortedMap.mem_erase.mp he).1 }

def clear (table : ConnectionTable C) : ConnectionTable C :=
  { table with
    conns := .empty
    lt_nextIndex := by simp }

section Get

variable (table : ConnectionTable C) {idx i : ℕ}

@[simp] theorem get?_clear (i : ℕ) : table.clear.get? i = none := rfl

theorem get?_nextIndex : table.get? table.nextIndex = none := by
  refine get?_eq_none_iff.mpr fun conn hconn => ?_
  exact lt_irrefl _ (table.lt_nextIndex _ hconn)

theorem get?_insert_self (core : C) :
    (table.insert core).get? table.nextIndex = some ⟨none, fun _ => false, core⟩ :=
  SortedMap.get?_insert_self _ _ _

theorem get?_insert_of_ne (h : i ≠ table.nextIndex) (core : C) :
    (table.insert core).get? i = table.get? i :=
  SortedMap.get?_insert_of_ne _ h _

theorem get?_update (idx : ℕ) (f : Conn C → Conn C) (i : ℕ) :
    (table.update idx f).get? i = (table.get? i).map fun conn => if i = idx then f conn else conn :=
  get?_modify _ _ _ _

theorem get?_remove_self : (table.remove idx).get? idx = none :=
  get?_erase_self _ _

theorem get?_remove_of_ne (h : i ≠ idx) : (table.remove idx).get? i = table.get? i :=
  get?_erase_of_ne _ h

end Get

end ConnectionTable

/-! ## Work queues -/

/-- The connections with work to do and with packets to send; `version` counts the changes, since
the order of a hash set depends on its history. -/
structure ConnectionQueues where
  members : Work → Finset ℕ
  version : ℕ

namespace ConnectionQueues

def new : ConnectionQueues := ⟨fun _ => ∅, 0⟩

def tickable (queues : ConnectionQueues) : Finset ℕ := queues.members .tickable

def sendable (queues : ConnectionQueues) : Finset ℕ := queues.members .sendable

def put (queues : ConnectionQueues) (work : Work) (idx : ℕ) (queued : Bool) :
    ConnectionQueues where
  members := Function.update queues.members work
    (if queued then insert idx (queues.members work) else (queues.members work).erase idx)
  version := queues.version + 1

end ConnectionQueues

/-! ## Routes -/

def resetTokenLen : ℕ := 16

def minResetPacketLen : ℕ := 21

def maxResetPacketLen : ℕ := 42

def resetTokenFromBytes (buf : Bytes) : Option Bytes :=
  if buf.length < minResetPacketLen then none else some (buf.drop (buf.length - resetTokenLen))

structure ConnectionRoutes where
  cidTable : ConnectionId → Option ℕ
  addrTable : FourTuple → Option ℕ
  tokenTable : Bytes → Option ℕ

namespace ConnectionRoutes

def new : ConnectionRoutes := ⟨fun _ => none, fun _ => none, fun _ => none⟩

def findCid (routes : ConnectionRoutes) (dcid : ConnectionId) (info : PacketInfo) : Option ℕ :=
  if dcid.isEmpty then routes.addrTable ⟨info.dst, info.src⟩ else routes.cidTable dcid

/-- The connection for a datagram, and whether it was found by reset token. -/
def find (routes : ConnectionRoutes) (dcid : ConnectionId) (buf : Bytes) (info : PacketInfo) :
    Option ℕ × Bool :=
  match routes.findCid dcid info with
  | some idx => (some idx, false)
  | none =>
    match if resetTokenLen < buf.length then resetTokenFromBytes buf else none with
    | none => (none, false)
    | some token => (routes.tokenTable token, (routes.tokenTable token).isSome)

def insertWithCid (routes : ConnectionRoutes) (cid : ConnectionId) (idx : ℕ) : ConnectionRoutes :=
  { routes with cidTable := Function.update routes.cidTable cid (some idx) }

def removeWithCid (routes : ConnectionRoutes) (cid : ConnectionId) : ConnectionRoutes :=
  { routes with cidTable := Function.update routes.cidTable cid none }

def insertWithAddr (routes : ConnectionRoutes) (addr : FourTuple) (idx : ℕ) : ConnectionRoutes :=
  { routes with addrTable := Function.update routes.addrTable addr (some idx) }

def removeWithAddr (routes : ConnectionRoutes) (addr : FourTuple) : ConnectionRoutes :=
  { routes with addrTable := Function.update routes.addrTable addr none }

def insertWithToken (routes : ConnectionRoutes) (token : Bytes) (idx : ℕ) : ConnectionRoutes :=
  { routes with tokenTable := Function.update routes.tokenTable token (some idx) }

def removeWithToken (routes : ConnectionRoutes) (token : Bytes) : ConnectionRoutes :=
  { routes with tokenTable := Function.update routes.tokenTable token none }

end ConnectionRoutes

/-! ## Buffered 0-RTT packets -/

def maxZerorttPacketsPerConn : ℕ := 10

/-- Buffered packets by destination id, the id used last in front. -/
structure PacketBuffer where
  cacheSize : ℕ
  packets : List (ConnectionId × List (Bytes × PacketInfo))

namespace PacketBuffer

def without (buffer : PacketBuffer) (dcid : ConnectionId) :
    List (ConnectionId × List (Bytes × PacketInfo)) :=
  buffer.packets.filter (fun e => e.1 ≠ dcid)

def add (buffer : PacketBuffer) (dcid : ConnectionId) (buf : Bytes) (info : PacketInfo) :
    PacketBuffer :=
  match buffer.packets.lookup dcid with
  | some v =>
    let v := if v.length < maxZerorttPacketsPerConn then v ++ [(buf, info)] else v
    { buffer with packets := (dcid, v) :: buffer.without dcid }
  | none =>
    { buffer with packets := ((dcid, [(buf, info)]) :: buffer.packets).take buffer.cacheSize }

def del (buffer : PacketBuffer) (dcid : ConnectionId) :
    List (Bytes × PacketInfo) × PacketBuffer :=
  ((buffer.packets.lookup dcid).getD [], { buffer with packets := buffer.without dcid })

end PacketBuffer

/-! ## Timers -/

abbrev TimerQueue := SortedMap ℕ ℕ

namespace TimerQueue

def add (timers : TimerQueue) (idx duration now : ℕ) : TimerQueue :=
  timers.insert idx (now + duration)

/-- The timer that expires first, the smallest index among equal ones. -/
def peekMin (timers : TimerQueue) : Option (ℕ × ℕ) :=
  timers.entries.argmin Prod.snd

def nextExpire (timers : TimerQueue) (now : ℕ) : Option (ℕ × TimerQueue) :=
  match timers.peekMin with
  | none => none
  | some (idx, expiresAt) => if expiresAt ≤ now then some (idx, timers.erase idx) else none

end TimerQueue

end Tquic
