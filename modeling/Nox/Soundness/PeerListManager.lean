import Nox.Proofs.P2p.PeerListManager

/-! # The peer lists over every run, and the head a handshake sends

From `init`, every sequence of calls leaves no address on both lists, each list within its limit
and holding an address at most once, and only allowed addresses stored; every trim evicts the
entries seen longest ago. The head of the white list that a handshake sends is made of the most
recently seen entries, most recent first, but there are two more of them than the depth asks for:
the loop compares the count with the depth before incrementing it and after the push.
-/

namespace Nox.P2p

open MultiIndex MultiIndex.Container

/-- Every sequence of calls from `init` keeps the lists disjoint, within their limits, one entry per
address and only allowed addresses, and every trim drops entries seen no later than those it
keeps. -/
theorem peerlist_invariant_over_runs :
    (∀ (allow_local_ip : Bool) (operations : List PeerlistOperation),
      PeerlistInvariant ((PeerlistManager.init allow_local_ip).run operations) ∧
        (((PeerlistManager.init allow_local_ip).run operations).m_peers_white.entries.map (·.adr)).Nodup ∧
        (((PeerlistManager.init allow_local_ip).run operations).m_peers_gray.entries.map (·.adr)).Nodup) ∧
      ∀ (list : PeersIndexed) (maxSize : ℕ), ∀ evicted ∈ list.entries.take (list.entries.length - maxSize),
        ∀ kept ∈ (list.trimFront maxSize).entries, evicted.last_seen ≤ kept.last_seen := by
  refine ⟨fun allow_local_ip operations => ⟨(PeerlistInvariant.init allow_local_ip).run operations,
    Container.unique _, Container.unique _⟩, fun list maxSize evicted dropped kept member => ?_⟩
  rw [UInt64.le_iff_toNat_le]
  exact trimFront_evicts_least list maxSize evicted dropped kept member

/-- Below the largest depth the head holds the `depth + 2` most recently seen white entries, or
all of them when there are fewer; at the largest depth all of them. They come most recently seen
first, and none it leaves out was seen later than one it holds. -/
theorem get_peerlist_head_two_past_depth :
    (∀ (m : PeerlistManager) (bs_head : List PeerlistEntry) (depth : UInt32), depth.toNat + 1 < 2 ^ 32 →
      m.get_peerlist_head bs_head depth = bs_head ++ m.seenWhite.take (depth.toNat + 2)) ∧
      (∀ (m : PeerlistManager) (bs_head : List PeerlistEntry),
        m.get_peerlist_head bs_head 0xFFFFFFFF = bs_head ++ m.seenWhite) ∧
      (∀ m : PeerlistManager, m.seenWhite.Pairwise fun earlier later => later.last_seen ≤ earlier.last_seen) ∧
      ∀ (m : PeerlistManager) (count : ℕ), ∀ sent ∈ m.seenWhite.take count, ∀ left ∈ m.seenWhite.drop count,
        left.last_seen ≤ sent.last_seen := by
  refine ⟨fun m bs_head depth notMax => ?_, fun m bs_head => ?_, PeerlistManager.seenWhite_sorted,
    PeerlistManager.take_seenWhite_latest⟩
  · rw [PeerlistManager.get_peerlist_head, PeerlistManager.peerlistHeadLoop_eq_take notMax _ 0 (by simp)]
    rfl
  · rw [PeerlistManager.get_peerlist_head, PeerlistManager.peerlistHeadLoop_max]
    rfl

namespace Scenario

/-- Three peers seen at times 100, 200 and 300 on a node that keeps no local addresses. -/
def seenPeers : PeerlistManager :=
  (PeerlistManager.init false).run
    [.set_peer_just_seen 1 ⟨0x04030201, 8080⟩ 100, .set_peer_just_seen 2 ⟨0x05030201, 8080⟩ 200,
      .set_peer_just_seen 3 ⟨0x06030201, 8080⟩ 300]

/-- The peer seen first. -/
def firstSeen : PeerlistEntry := ⟨⟨0x04030201, 8080⟩, 1, 100⟩

/-- The peer seen last. -/
def lastSeen : PeerlistEntry := ⟨⟨0x06030201, 8080⟩, 3, 300⟩

/-- After the three calls the invariant holds, and trimming the white list to one entry drops the
peer seen first and keeps the one seen last. -/
theorem peerlist_invariant_over_runs_three_peers :
    PeerlistInvariant seenPeers ∧
      firstSeen ∈ seenPeers.m_peers_white.entries.take (seenPeers.m_peers_white.entries.length - 1) ∧
      lastSeen ∈ (seenPeers.m_peers_white.trimFront 1).entries ∧ firstSeen.last_seen ≤ lastSeen.last_seen := by
  have dropped : firstSeen ∈ seenPeers.m_peers_white.entries.take (seenPeers.m_peers_white.entries.length - 1) := by
    decide
  have kept : lastSeen ∈ (seenPeers.m_peers_white.trimFront 1).entries := by decide
  exact ⟨(peerlist_invariant_over_runs.1 false _).1, dropped, kept,
    peerlist_invariant_over_runs.2 seenPeers.m_peers_white 1 firstSeen dropped lastSeen kept⟩

/-- Asked for a head of depth 1, the manager sends the three seen entries, the `1 + 2` most recently
seen. -/
theorem get_peerlist_head_two_past_depth_one :
    (1 : UInt32).toNat + 1 < 2 ^ 32 ∧
      seenPeers.get_peerlist_head [] 1 = [] ++ seenPeers.seenWhite.take ((1 : UInt32).toNat + 2) :=
  ⟨by decide, get_peerlist_head_two_past_depth.1 seenPeers [] 1 (by decide)⟩

/-- The head of depth 1 holds three entries, not `min 1 3`. -/
theorem get_peerlist_head_three_for_depth_one :
    (seenPeers.get_peerlist_head [] 1).map (·.last_seen) = [300, 200, 100] ∧
      seenPeers.seenWhite.length = 3 ∧ min 1 seenPeers.seenWhite.length = 1 := by
  decide

end Scenario

end Nox.P2p
