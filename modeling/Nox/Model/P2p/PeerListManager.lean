import Nox.Library.MultiIndex

/-! # The peer lists of `PeerListManager.cpp`

A node keeps the peers it has talked to in a white list and the peers others told it about in a
gray list, each a `multi_index_container` with a unique index on the address and an index on
`last_seen` (`MultiIndex.Container`). A white insertion takes the address out of the gray list; a
gray insertion is skipped for an address on the white list; both trim their list to its limit after
inserting a new address, dropping the entries seen longest ago. A handshake sends the head of the
white list, from the most recently seen entry down.

`time(NULL)` is the argument `now`. The `bool` results, which are `true` except where an exception
is caught, the serialisation and the lookups by index are left out.
-/

namespace Nox.P2p

open MultiIndex

def P2P_LOCAL_WHITE_PEERLIST_LIMIT : ℕ := 1000
def P2P_LOCAL_GRAY_PEERLIST_LIMIT : ℕ := 5000

/-- `P2P_DEFAULT_PEERS_IN_HANDSHAKE`, the default depth of `get_peerlist_head`. -/
def P2P_DEFAULT_PEERS_IN_HANDSHAKE : UInt32 := 250

/-- `NetworkAddress`: an IPv4 address in network byte order and a port. -/
structure NetworkAddress where
  ip : UInt32
  port : UInt32
deriving DecidableEq, Repr

abbrev PeerIdType := UInt64

/-- `PeerlistEntry`. -/
structure PeerlistEntry where
  adr : NetworkAddress
  id : PeerIdType
  last_seen : UInt64
deriving DecidableEq, Repr

/-- `peers_indexed`: unique by address, ordered by `last_seen`. -/
abbrev PeersIndexed : Type := Container PeerlistEntry.adr fun entry : PeerlistEntry => entry.last_seen.toNat

/-- `hostToNetwork`: the byte swap. -/
def hostToNetwork (n : UInt32) : UInt32 :=
  (n <<< 24) ||| ((n &&& 0xff00) <<< 8) ||| ((n &&& 0xff0000) >>> 8) ||| (n >>> 24)

/-- `networkToHost`, the same byte swap. -/
def networkToHost (n : UInt32) : UInt32 := hostToNetwork n

/-- `System::Ipv4Address`, in host byte order. -/
structure Ipv4Address where
  value : UInt32
deriving DecidableEq, Repr

/-- `isLoopback`: `127.0.0.0/8`. -/
def Ipv4Address.isLoopback (addr : Ipv4Address) : Bool := (addr.value &&& (0xff000000 : UInt32)) == (127 : UInt32) <<< 24

/-- `isPrivate`: `10.0.0.0/8`, `172.16.0.0/12` and `192.168.0.0/16`. -/
def Ipv4Address.isPrivate (addr : Ipv4Address) : Bool :=
  (addr.value &&& (0xff000000 : UInt32)) == (10 : UInt32) <<< 24 ||
    (addr.value &&& (0xfff00000 : UInt32)) == (((172 : UInt32) <<< 24) ||| ((16 : UInt32) <<< 16)) ||
    (addr.value &&& (0xffff0000 : UInt32)) == (((192 : UInt32) <<< 24) ||| ((168 : UInt32) <<< 16))

/-- `PeerlistManager`: the flag `init` sets and the two lists. -/
structure PeerlistManager where
  m_allow_local_ip : Bool
  m_peers_gray : PeersIndexed
  m_peers_white : PeersIndexed

/-- A call on the manager, from the list the peer-list invariant is stated over. -/
inductive PeerlistOperation where
  | append_with_peer_white (ple : PeerlistEntry)
  | append_with_peer_gray (ple : PeerlistEntry)
  | merge_peerlist (outer_bs : List PeerlistEntry)
  | set_peer_just_seen (peer : PeerIdType) (addr : NetworkAddress) (now : UInt64)
  | trim_white_peerlist
  | trim_gray_peerlist

namespace PeerlistManager

/-- A manager after `init(allow_local_ip)`, with both lists empty. -/
def init (allow_local_ip : Bool) : PeerlistManager := ⟨allow_local_ip, .empty, .empty⟩

variable (m : PeerlistManager)

/-- `is_ip_allowed(ip)`: never a loopback address, and a private one only when local addresses are
allowed. -/
def is_ip_allowed (ip : UInt32) : Bool :=
  let addr : Ipv4Address := ⟨networkToHost ip⟩
  if addr.isLoopback then false
  else if !m.m_allow_local_ip && addr.isPrivate then false
  else true

/-- `trim_white_peerlist`: `Peerlist::trim` of the white list. -/
def trim_white_peerlist : PeerlistManager :=
  { m with m_peers_white := m.m_peers_white.trimFront P2P_LOCAL_WHITE_PEERLIST_LIMIT }

/-- `trim_gray_peerlist`: `Peerlist::trim` of the gray list. -/
def trim_gray_peerlist : PeerlistManager :=
  { m with m_peers_gray := m.m_peers_gray.trimFront P2P_LOCAL_GRAY_PEERLIST_LIMIT }

/-- `append_with_peer_white(ple)`: a new address goes in and the list is trimmed, a known one is
replaced; then the address leaves the gray list. -/
def append_with_peer_white (ple : PeerlistEntry) : PeerlistManager :=
  if !m.is_ip_allowed ple.adr.ip then m
  else
    let m := match m.m_peers_white.find ple.adr with
      | none => { m with m_peers_white := m.m_peers_white.insert ple }.trim_white_peerlist
      | some _ => { m with m_peers_white := m.m_peers_white.replace ple }
    match m.m_peers_gray.find ple.adr with
    | some _ => { m with m_peers_gray := m.m_peers_gray.erase ple.adr }
    | none => m

/-- `append_with_peer_gray(ple)`: skipped for an address on the white list; otherwise a new address
goes in and the list is trimmed, a known one is replaced. -/
def append_with_peer_gray (ple : PeerlistEntry) : PeerlistManager :=
  if !m.is_ip_allowed ple.adr.ip then m
  else match m.m_peers_white.find ple.adr with
    | some _ => m
    | none => match m.m_peers_gray.find ple.adr with
      | none => { m with m_peers_gray := m.m_peers_gray.insert ple }.trim_gray_peerlist
      | some _ => { m with m_peers_gray := m.m_peers_gray.replace ple }

/-- `merge_peerlist(outer_bs)`: every remote entry into the gray list, then a trim. -/
def merge_peerlist (outer_bs : List PeerlistEntry) : PeerlistManager :=
  (outer_bs.foldl append_with_peer_gray m).trim_gray_peerlist

/-- `set_peer_just_seen(peer, addr)`: the peer on the white list, seen at `now`. -/
def set_peer_just_seen (peer : PeerIdType) (addr : NetworkAddress) (now : UInt64) : PeerlistManager :=
  m.append_with_peer_white ⟨addr, peer, now⟩

/-- The loop of `get_peerlist_head` from the most recently seen entry: entries never seen are
skipped, and after each push the loop breaks when the count, before it is incremented, exceeds
the depth. -/
def peerlistHeadLoop (depth : UInt32) : UInt32 → List PeerlistEntry → List PeerlistEntry
  | _, [] => []
  | cnt, vl :: rest =>
    if vl.last_seen = 0 then peerlistHeadLoop depth cnt rest
    else vl :: if cnt > depth then [] else peerlistHeadLoop depth (cnt + 1) rest

/-- `get_peerlist_head(bs_head, depth)`: `bs_head` with the head of the white list appended, walked
in reverse order of `last_seen`. -/
def get_peerlist_head (bs_head : List PeerlistEntry) (depth : UInt32) : List PeerlistEntry :=
  bs_head ++ peerlistHeadLoop depth 0 m.m_peers_white.entries.reverse

/-- One call. -/
def apply : PeerlistOperation → PeerlistManager
  | .append_with_peer_white ple => m.append_with_peer_white ple
  | .append_with_peer_gray ple => m.append_with_peer_gray ple
  | .merge_peerlist outer_bs => m.merge_peerlist outer_bs
  | .set_peer_just_seen peer addr now => m.set_peer_just_seen peer addr now
  | .trim_white_peerlist => m.trim_white_peerlist
  | .trim_gray_peerlist => m.trim_gray_peerlist

/-- A sequence of calls. -/
def run (operations : List PeerlistOperation) : PeerlistManager := operations.foldl apply m

end PeerlistManager

end Nox.P2p
