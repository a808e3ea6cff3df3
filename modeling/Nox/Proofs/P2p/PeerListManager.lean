import Nox.Model.P2p.PeerListManager

/-! # The peer-list invariant

No address is on both lists, each list is within its limit, and every stored address passes
`is_ip_allowed`; that each list holds an address at most once is carried by the container. Each
call keeps this: a white insertion takes the address off the gray list, a gray insertion is skipped
for a white address, every insertion of a new address is followed by a trim, and replacing an entry
keeps the list's length. So it holds after every sequence of calls from `init`.
-/

namespace Nox.P2p

open MultiIndex MultiIndex.Container

/-- What the peer lists keep over every sequence of calls. -/
structure PeerlistInvariant (m : PeerlistManager) : Prop where
  disjoint : ∀ white ∈ m.m_peers_white.entries, ∀ gray ∈ m.m_peers_gray.entries, white.adr ≠ gray.adr
  whiteBound : m.m_peers_white.entries.length ≤ P2P_LOCAL_WHITE_PEERLIST_LIMIT
  grayBound : m.m_peers_gray.entries.length ≤ P2P_LOCAL_GRAY_PEERLIST_LIMIT
  whiteAllowed : ∀ entry ∈ m.m_peers_white.entries, m.is_ip_allowed entry.adr.ip = true
  grayAllowed : ∀ entry ∈ m.m_peers_gray.entries, m.is_ip_allowed entry.adr.ip = true

namespace PeerlistManager

/-- `append_with_peer_white` either changes nothing, or, for an allowed address, puts a white list
made from the old one and the entry in place, and a gray list that lacks the address. -/
theorem append_with_peer_white_cases (m : PeerlistManager) (ple : PeerlistEntry) :
    m.append_with_peer_white ple = m ∨
      m.is_ip_allowed ple.adr.ip = true ∧
        ∃ white gray, m.append_with_peer_white ple = ⟨m.m_allow_local_ip, gray, white⟩ ∧
          (white = (m.m_peers_white.insert ple).trimFront P2P_LOCAL_WHITE_PEERLIST_LIMIT ∨
            white = m.m_peers_white.replace ple) ∧
          (gray = m.m_peers_gray.erase ple.adr ∨ gray = m.m_peers_gray ∧ m.m_peers_gray.find ple.adr = none) := by
  unfold append_with_peer_white
  split_ifs with refused
  · exact .inl rfl
  · refine .inr ⟨by simpa using refused, ?_⟩
    -- a new or a known white address, then a gray list with or without it
    cases m.m_peers_white.find ple.adr <;> cases foundGray : m.m_peers_gray.find ple.adr <;>
      simp only [trim_white_peerlist, foundGray]
    · exact ⟨_, _, rfl, .inl rfl, .inr ⟨rfl, trivial⟩⟩
    · exact ⟨_, _, rfl, .inl rfl, .inl rfl⟩
    · exact ⟨_, _, rfl, .inr rfl, .inr ⟨rfl, trivial⟩⟩
    · exact ⟨_, _, rfl, .inr rfl, .inl rfl⟩

/-- `append_with_peer_gray` either changes nothing, or, for an allowed address not on the white
list, puts a gray list made from the old one and the entry in place. -/
theorem append_with_peer_gray_cases (m : PeerlistManager) (ple : PeerlistEntry) :
    m.append_with_peer_gray ple = m ∨
      m.is_ip_allowed ple.adr.ip = true ∧ m.m_peers_white.find ple.adr = none ∧
        ∃ gray, m.append_with_peer_gray ple = ⟨m.m_allow_local_ip, gray, m.m_peers_white⟩ ∧
          (gray = (m.m_peers_gray.insert ple).trimFront P2P_LOCAL_GRAY_PEERLIST_LIMIT ∨
            gray = m.m_peers_gray.replace ple) := by
  unfold append_with_peer_gray
  split_ifs with refused
  · exact .inl rfl
  · split
    · exact .inl rfl
    · rename_i notWhite
      refine .inr ⟨by simpa using refused, notWhite, ?_⟩
      split
      · exact ⟨_, rfl, .inl rfl⟩
      · exact ⟨_, rfl, .inr rfl⟩

@[simp] theorem trim_white_peerlist_m_allow_local_ip (m : PeerlistManager) :
    m.trim_white_peerlist.m_allow_local_ip = m.m_allow_local_ip := by
  unfold trim_white_peerlist
  rfl

@[simp] theorem trim_white_peerlist_m_peers_gray (m : PeerlistManager) :
    m.trim_white_peerlist.m_peers_gray = m.m_peers_gray := by
  unfold trim_white_peerlist
  rfl

@[simp] theorem trim_white_peerlist_m_peers_white (m : PeerlistManager) :
    m.trim_white_peerlist.m_peers_white = m.m_peers_white.trimFront P2P_LOCAL_WHITE_PEERLIST_LIMIT := by
  unfold trim_white_peerlist
  rfl

@[simp] theorem trim_gray_peerlist_m_allow_local_ip (m : PeerlistManager) :
    m.trim_gray_peerlist.m_allow_local_ip = m.m_allow_local_ip := by
  unfold trim_gray_peerlist
  rfl

@[simp] theorem trim_gray_peerlist_m_peers_gray (m : PeerlistManager) :
    m.trim_gray_peerlist.m_peers_gray = m.m_peers_gray.trimFront P2P_LOCAL_GRAY_PEERLIST_LIMIT := by
  unfold trim_gray_peerlist
  rfl

@[simp] theorem trim_gray_peerlist_m_peers_white (m : PeerlistManager) :
    m.trim_gray_peerlist.m_peers_white = m.m_peers_white := by
  unfold trim_gray_peerlist
  rfl

/-- Whether an address is allowed depends on the manager's flag alone. -/
theorem is_ip_allowed_of_flag {m m' : PeerlistManager} (same : m'.m_allow_local_ip = m.m_allow_local_ip)
    (ip : UInt32) : m'.is_ip_allowed ip = m.is_ip_allowed ip := by
  simp [is_ip_allowed, same]

end PeerlistManager

open PeerlistManager

theorem PeerlistInvariant.init (allow_local_ip : Bool) : PeerlistInvariant (PeerlistManager.init allow_local_ip) :=
  ⟨by simp [PeerlistManager.init, Container.empty], by simp [PeerlistManager.init, Container.empty, P2P_LOCAL_WHITE_PEERLIST_LIMIT],
    by simp [PeerlistManager.init, Container.empty, P2P_LOCAL_GRAY_PEERLIST_LIMIT],
    by simp [PeerlistManager.init, Container.empty], by simp [PeerlistManager.init, Container.empty]⟩

/-- A new address goes in and the list is trimmed, or a known one is replaced: the list holds its
old entries and the new one, and stays within the limit. -/
theorem insert_or_replace {list list' : PeersIndexed} {ple : PeerlistEntry} {limit : ℕ}
    (within : list.entries.length ≤ limit)
    (updated : list' = (list.insert ple).trimFront limit ∨ list' = list.replace ple) :
    (∀ y ∈ list'.entries, y ∈ list.entries ∨ y = ple) ∧ list'.entries.length ≤ limit := by
  rcases updated with rfl | rfl
  · exact ⟨fun y member => mem_insert (mem_trimFront member), by rw [length_trimFront]; omega⟩
  · exact ⟨fun y member => mem_replace member, by rw [length_replace]; exact within⟩

theorem PeerlistInvariant.append_with_peer_white {m : PeerlistManager} (invariant : PeerlistInvariant m)
    (ple : PeerlistEntry) : PeerlistInvariant (m.append_with_peer_white ple) := by
  rcases m.append_with_peer_white_cases ple with unchanged | ⟨allowed, white, gray, result, whiteUpdated, grayUpdated⟩
  · rw [unchanged]
    exact invariant
  rw [result]
  obtain ⟨whiteFrom, whiteBound⟩ := insert_or_replace invariant.whiteBound whiteUpdated
  -- the gray list only loses entries, and none of its entries has the new address
  have grayFrom : ∀ y ∈ gray.entries, y ∈ m.m_peers_gray.entries ∧ y.adr ≠ ple.adr := by
    intro y member
    rcases grayUpdated with rfl | ⟨rfl, absent⟩
    · exact mem_erase.mp member
    · exact ⟨member, (find_eq_none_iff_forall _ _).mp absent y member⟩
  have grayBound : gray.entries.length ≤ P2P_LOCAL_GRAY_PEERLIST_LIMIT := by
    rcases grayUpdated with rfl | ⟨rfl, -⟩
    · exact (length_erase_le _ _).trans invariant.grayBound
    · exact invariant.grayBound
  refine ⟨fun w inWhite g inGray => ?_, whiteBound, grayBound, fun entry member => ?_, fun entry member => ?_⟩
  · obtain ⟨oldGray, notNew⟩ := grayFrom g inGray
    rcases whiteFrom w inWhite with oldWhite | rfl
    · exact invariant.disjoint w oldWhite g oldGray
    · exact notNew.symm
  · rcases whiteFrom entry member with old | rfl
    · exact invariant.whiteAllowed entry old
    · exact allowed
  · exact invariant.grayAllowed entry (grayFrom entry member).1

theorem PeerlistInvariant.append_with_peer_gray {m : PeerlistManager} (invariant : PeerlistInvariant m)
    (ple : PeerlistEntry) : PeerlistInvariant (m.append_with_peer_gray ple) := by
  rcases m.append_with_peer_gray_cases ple with unchanged | ⟨allowed, notWhite, gray, result, grayUpdated⟩
  · rw [unchanged]
    exact invariant
  rw [result]
  obtain ⟨grayFrom, grayBound⟩ := insert_or_replace invariant.grayBound grayUpdated
  refine ⟨fun w inWhite g inGray => ?_, invariant.whiteBound, grayBound, invariant.whiteAllowed,
    fun entry member => ?_⟩
  · -- a white address is never the new one, which the white list lacks
    rcases grayFrom g inGray with oldGray | rfl
    · exact invariant.disjoint w inWhite g oldGray
    · exact (find_eq_none_iff_forall _ _).mp notWhite w inWhite
  · rcases grayFrom entry member with old | rfl
    · exact invariant.grayAllowed entry old
    · exact allowed

theorem PeerlistInvariant.trim_white_peerlist {m : PeerlistManager} (invariant : PeerlistInvariant m) :
    PeerlistInvariant m.trim_white_peerlist := by
  have allowedSame := is_ip_allowed_of_flag (trim_white_peerlist_m_allow_local_ip m)
  refine ⟨?_, ?_, ?_, ?_, ?_⟩ <;>
    simp only [trim_white_peerlist_m_peers_white, trim_white_peerlist_m_peers_gray, allowedSame]
  · exact fun w inWhite => invariant.disjoint w (mem_trimFront inWhite)
  · rw [length_trimFront]
    exact Nat.min_le_right _ _
  · exact invariant.grayBound
  · exact fun entry member => invariant.whiteAllowed entry (mem_trimFront member)
  · exact invariant.grayAllowed

theorem PeerlistInvariant.trim_gray_peerlist {m : PeerlistManager} (invariant : PeerlistInvariant m) :
    PeerlistInvariant m.trim_gray_peerlist := by
  have allowedSame := is_ip_allowed_of_flag (trim_gray_peerlist_m_allow_local_ip m)
  refine ⟨?_, ?_, ?_, ?_, ?_⟩ <;>
    simp only [trim_gray_peerlist_m_peers_white, trim_gray_peerlist_m_peers_gray, allowedSame]
  · exact fun w inWhite g inGray => invariant.disjoint w inWhite g (mem_trimFront inGray)
  · exact invariant.whiteBound
  · rw [length_trimFront]
    exact Nat.min_le_right _ _
  · exact invariant.whiteAllowed
  · exact fun entry member => invariant.grayAllowed entry (mem_trimFront member)

theorem PeerlistInvariant.merge_peerlist {m : PeerlistManager} (invariant : PeerlistInvariant m)
    (outer_bs : List PeerlistEntry) : PeerlistInvariant (m.merge_peerlist outer_bs) := by
  unfold PeerlistManager.merge_peerlist
  apply PeerlistInvariant.trim_gray_peerlist
  -- each remote entry is a gray insertion
  induction outer_bs generalizing m with
  | nil => exact invariant
  | cons be rest ih => exact ih (invariant.append_with_peer_gray be)

/-- Every call keeps the invariant. -/
theorem PeerlistInvariant.apply {m : PeerlistManager} (invariant : PeerlistInvariant m) :
    ∀ operation, PeerlistInvariant (m.apply operation)
  | .append_with_peer_white ple => invariant.append_with_peer_white ple
  | .append_with_peer_gray ple => invariant.append_with_peer_gray ple
  | .merge_peerlist outer_bs => invariant.merge_peerlist outer_bs
  | .set_peer_just_seen peer addr now => invariant.append_with_peer_white ⟨addr, peer, now⟩
  | .trim_white_peerlist => invariant.trim_white_peerlist
  | .trim_gray_peerlist => invariant.trim_gray_peerlist

/-- Every sequence of calls keeps the invariant. -/
theorem PeerlistInvariant.run {m : PeerlistManager} (invariant : PeerlistInvariant m) :
    ∀ operations, PeerlistInvariant (m.run operations)
  | [] => invariant
  | operation :: operations => (invariant.apply operation).run operations

/-! ## The head of the white list -/

namespace PeerlistManager

/-- The white entries that have been seen, most recently seen first: what `get_peerlist_head`
walks through. -/
def seenWhite (m : PeerlistManager) : List PeerlistEntry :=
  m.m_peers_white.entries.reverse.filter (·.last_seen ≠ 0)

/-- Below the largest depth, the loop pushes `depth + 2 - cnt` seen entries: the count it tests
was taken before the increment, and the test comes after the push. -/
theorem peerlistHeadLoop_eq_take {depth : UInt32} (notMax : depth.toNat + 1 < 2 ^ 32) :
    ∀ (entries : List PeerlistEntry) (cnt : UInt32), cnt.toNat ≤ depth.toNat + 1 →
      peerlistHeadLoop depth cnt entries = (entries.filter (·.last_seen ≠ 0)).take (depth.toNat + 2 - cnt.toNat)
  | [], _, _ => by simp [peerlistHeadLoop]
  | vl :: rest, cnt, counted => by
    rw [peerlistHeadLoop]
    by_cases unseen : vl.last_seen = 0
    · rw [if_pos unseen, List.filter_cons_of_neg (by simpa using unseen)]
      exact peerlistHeadLoop_eq_take notMax rest cnt counted
    · rw [if_neg unseen, List.filter_cons_of_pos (by simpa using unseen)]
      obtain ⟨left, remaining⟩ : ∃ left, depth.toNat + 2 - cnt.toNat = left + 1 := ⟨_, (Nat.succ_pred_eq_of_pos (by omega)).symm⟩
      rw [remaining, List.take_succ_cons]
      split_ifs with past
      · -- the count has passed the depth: this push was the last
        rw [gt_iff_lt, UInt32.lt_iff_toNat_lt] at past
        rw [show left = 0 by omega, List.take_zero]
      · rw [gt_iff_lt, UInt32.lt_iff_toNat_lt] at past
        have next : (cnt + 1).toNat = cnt.toNat + 1 := by
          rw [UInt32.toNat_add, UInt32.toNat_one]
          exact Nat.mod_eq_of_lt (by omega)
        rw [peerlistHeadLoop_eq_take notMax rest (cnt + 1) (by omega), next]
        congr 2
        omega

/-- At the largest depth the count never passes it, and every seen entry is pushed. -/
theorem peerlistHeadLoop_max : ∀ (entries : List PeerlistEntry) (cnt : UInt32),
    peerlistHeadLoop 0xFFFFFFFF cnt entries = entries.filter (·.last_seen ≠ 0)
  | [], _ => rfl
  | vl :: rest, cnt => by
    have never : ¬ cnt > 0xFFFFFFFF := by
      rw [gt_iff_lt, UInt32.lt_iff_toNat_lt]
      have := cnt.toNat_lt
      have largest : (0xFFFFFFFF : UInt32).toNat = 2 ^ 32 - 1 := by decide
      omega
    rw [peerlistHeadLoop]
    by_cases unseen : vl.last_seen = 0
    · rw [if_pos unseen, List.filter_cons_of_neg (by simpa using unseen), peerlistHeadLoop_max rest cnt]
    · rw [if_neg unseen, List.filter_cons_of_pos (by simpa using unseen), if_neg never, peerlistHeadLoop_max rest]

/-- The seen white entries come most recently seen first. -/
theorem seenWhite_sorted (m : PeerlistManager) :
    m.seenWhite.Pairwise fun earlier later => later.last_seen ≤ earlier.last_seen := by
  have descending := List.pairwise_reverse.mpr m.m_peers_white.sorted
  refine (descending.sublist List.filter_sublist).imp fun ordered => ?_
  rw [UInt64.le_iff_toNat_le]
  exact ordered

/-- Any first part of the seen entries holds the most recently seen: none it leaves out was seen
later than one it holds. -/
theorem take_seenWhite_latest (m : PeerlistManager) (count : ℕ) :
    ∀ sent ∈ m.seenWhite.take count, ∀ left ∈ m.seenWhite.drop count, left.last_seen ≤ sent.last_seen := by
  have sorted := m.seenWhite_sorted
  rw [← List.take_append_drop count m.seenWhite, List.pairwise_append] at sorted
  exact sorted.2.2

end PeerlistManager

end Nox.P2p
