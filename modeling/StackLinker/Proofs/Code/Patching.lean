/-
# Relocating code in any state

A jump asks its carrier to carry the address of its target if both links lie in the code and the
target has an address, whatever that address is and wherever it came from.  Relocation fails with
the first address that is asked for and cannot be carried; without one it gives each carrier the
address that was last asked of it, and leaves all other nodes alone.
-/
import StackLinker.Proofs.Code.Jumps

namespace StackLinker.Code

variable {code : Code} {place id : NodeId} {site : JumpSite}

/-! ## Requests -/

/-- The node at a place is a jump with both links in the code, and its target has an address: it
asks its carrier to carry that address. -/
def Asks (code : Code) (place : NodeId) (site : JumpSite) : Prop :=
  ∃ n target, code.get? place = some n ∧ n.JumpsTo target site.carrier ∧
    code.contains target = true ∧
    code.contains site.carrier = true ∧ code.addressOf? target = some site.destination

/-- A node asks for what its site says. -/
theorem asks_iff :
    code.Asks place site ↔ ∃ n, code.get? place = some n ∧ code.jumpSite? n = some site := by
  constructor
  · rintro ⟨n, target, hn, hjump, -, hcarrier, haddress⟩
    exact ⟨n, hn, jumpSite?_eq_some_iff.mpr
      ⟨hjump.isJump, target, hjump.target, hjump.carrier, haddress, hcarrier⟩⟩
  · rintro ⟨n, hn, hsite⟩
    obtain ⟨hjump, target, htarget, hcarrier, haddress, hcontains⟩ := jumpSite?_eq_some_iff.mp hsite
    obtain ⟨node, hnode, -⟩ := Option.bind_eq_some_iff.mp haddress
    exact ⟨n, target, hn, ⟨hjump, htarget, hcarrier⟩,
      (code.contains_iff_get? target).mpr ⟨node, hnode⟩, hcontains, haddress⟩

/-- The sites of the code are what its nodes ask for. -/
theorem mem_jumpSites_iff : site ∈ code.jumpSites ↔ ∃ place, code.Asks place site := by
  rw [jumpSites, List.mem_filterMap]
  simp only [asks_iff]
  constructor
  · rintro ⟨n, hmem, hsite⟩
    obtain ⟨place, hn⟩ := List.getElem?_of_mem hmem
    exact ⟨place, n, hn, hsite⟩
  · rintro ⟨place, n, hn, hsite⟩
    exact ⟨n, List.mem_of_getElem? hn, hsite⟩

/-- The last address that is asked of a node is asked at a place after which none is asked of it. -/
theorem lastDestination?_eq_some_iff {destination : Address} :
    code.lastDestination? id = some destination ↔ ∃ place, code.Asks place ⟨id, destination⟩ ∧
      ∀ later site, place < later → code.Asks later site → site.carrier ≠ id := by
  rw [lastDestination?, jumpSites, List.filter_filterMap, Option.map_eq_some_iff]
  simp only [getLast?_filterMap_eq_some_iff, asks_iff, Option.filter_eq_some_iff,
    decide_eq_true_iff, Option.filter_eq_none_iff]
  constructor
  · rintro ⟨⟨carrier, _⟩, ⟨place, n, hn, ⟨hsite, rfl⟩, hlater⟩, rfl⟩
    refine ⟨place, ⟨n, hn, hsite⟩, ?_⟩
    rintro later site hlt ⟨m, hm, hmSite⟩
    exact hlater later m hlt hm site hmSite
  · rintro ⟨place, ⟨n, hn, hsite⟩, hlater⟩
    refine ⟨⟨id, destination⟩, ⟨place, n, hn, ⟨hsite, rfl⟩, ?_⟩, rfl⟩
    intro later m hlt hm site hmSite
    exact hlater later site hlt ⟨m, hm, hmSite⟩

/-- No address is asked of a node exactly if no node names it as the carrier of one. -/
theorem lastDestination?_eq_none_iff :
    code.lastDestination? id = none ↔ ∀ place site, code.Asks place site → site.carrier ≠ id := by
  rw [lastDestination?, Option.map_eq_none_iff, List.getLast?_eq_none_iff, List.filter_eq_nil_iff]
  simp only [mem_jumpSites_iff, decide_eq_true_iff, forall_exists_index]
  exact forall_comm

/-! ## Failure -/

/-- Encoding fails with the first destination that cannot be carried. -/
theorem encodeSites_of_find? {sites : List JumpSite}
    (h : sites.find? (fun site => JumpAddress.highest < site.destination.toNat) = some site) :
    encodeSites sites = .error (.addressOverflow site.destination) := by
  induction sites with
  | nil => cases h
  | cons first rest ih =>
    rw [encodeSites, JumpAddress.encode]
    by_cases hfirst : JumpAddress.highest < first.destination.toNat
    · rw [List.find?_cons_of_pos (by simpa using hfirst), Option.some_inj] at h
      rw [if_neg (Nat.not_le_of_lt hfirst), h]
    · rw [List.find?_cons_of_neg (by simpa using hfirst)] at h
      rw [if_pos (Nat.le_of_not_lt hfirst), ih h]

/-- **Relocation fails with the first.**  If some node asks for an address that cannot be carried,
relocation fails with that of the first such node. -/
theorem exists_first_of_highest_lt
    (h : ∃ place site, code.Asks place site ∧ JumpAddress.highest < site.destination.toNat) :
    ∃ place site, code.Asks place site ∧ JumpAddress.highest < site.destination.toNat ∧
      (∀ earlier site', earlier < place → code.Asks earlier site' →
        site'.destination.toNat ≤ JumpAddress.highest) ∧
      code.relocateJumps = (.error (.addressOverflow site.destination), code) := by
  cases hfind : code.jumpSites.find? fun site => JumpAddress.highest < site.destination.toNat with
  | none =>
    obtain ⟨place, site, hsite, hhigh⟩ := h
    exact absurd hhigh
      (by simpa using List.find?_eq_none.mp hfind site (mem_jumpSites_iff.mpr ⟨place, hsite⟩))
  | some site =>
    have hencode := encodeSites_of_find? hfind
    obtain ⟨place, n, hn, hsite, hhigh, hearlier⟩ := find?_filterMap_eq_some_iff.mp hfind
    refine ⟨place, site, asks_iff.mpr ⟨n, hn, hsite⟩, of_decide_eq_true hhigh, ?_, ?_⟩
    · intro earlier site' hlt hsite'
      obtain ⟨m, hm, hmSite⟩ := asks_iff.mp hsite'
      exact Nat.le_of_not_lt (of_decide_eq_false (hearlier earlier m site' hlt hm hmSite))
    · rw [relocateJumps, hencode]

/-! ## Success -/

/-- Where relocation writes, there is a node: its carriers lie in the code, and no write changes the
size of the code. -/
theorem contains_patch_of_encodeSites {patches before after : List (NodeId × JumpAddress)}
    {patch : NodeId × JumpAddress} (h : encodeSites code.jumpSites = .ok patches)
    (hpatch : patches = before ++ patch :: after) :
    (code.patch before).contains patch.1 = true := by
  have hmem : patch.1 ∈ code.jumpSites.map JumpSite.carrier := by
    rw [← carriers_of_encodeSites h, hpatch]
    exact List.mem_map_of_mem (List.mem_append_right before List.mem_cons_self)
  obtain ⟨site, hsite, hcarrier⟩ := List.mem_map.mp hmem
  obtain ⟨place, n, target, -, -, -, hcontains, -⟩ := mem_jumpSites_iff.mp hsite
  have houtline := outline_eq_of_skeleton
    (skeleton_writeAll code (before.map fun p => (p.1, .address p.2)))
  rw [patch_eq_writeAll, contains_eq_of_outline houtline, ← hcarrier]
  exact hcontains

/-- **Relocation writes what was last asked.**  If every address that is asked for can be carried,
relocation succeeds.  A node of which an address is asked gets the bytes of the last one, and any
other stays as it is. -/
theorem exists_relocated_of_le_highest
    (h : ∀ place site, code.Asks place site → site.destination.toNat ≤ JumpAddress.highest) :
    ∃ relocated, code.relocateJumps = (.ok code.jumpSites.length, relocated) ∧
      (∀ id, (∃ place site, code.Asks place site ∧ site.carrier = id) →
        ∃ place site n bytes, code.Asks place site ∧ site.carrier = id ∧
          (∀ later site', place < later → code.Asks later site' → site'.carrier ≠ id) ∧
          JumpAddress.encode site.destination = .ok bytes ∧ code.get? id = some n ∧
          relocated.get? id = some { n with payload := some (.address bytes) }) ∧
      ∀ id, (∀ place site, code.Asks place site → site.carrier ≠ id) →
        relocated.get? id = code.get? id := by
  obtain ⟨relocated, hrelocated, hget⟩ := relocateJumps_of_le_highest code fun site hsite => by
    obtain ⟨place, hplace⟩ := mem_jumpSites_iff.mp hsite
    exact h place site hplace
  refine ⟨relocated, hrelocated, ?_, ?_⟩
  · rintro id ⟨asking, site, hasks, rfl⟩
    cases hlast : code.lastDestination? site.carrier with
    | none => exact absurd rfl (lastDestination?_eq_none_iff.mp hlast asking site hasks)
    | some destination =>
      obtain ⟨place, hplace, hlater⟩ := lastDestination?_eq_some_iff.mp hlast
      obtain ⟨-, -, -, -, -, hcarrier, -⟩ := hasks
      obtain ⟨n, hn⟩ := (code.contains_iff_get? site.carrier).mp hcarrier
      refine ⟨place, _, n, JumpAddress.ofNat destination.toNat, hplace, rfl, hlater,
        if_pos (h place _ hplace), hn, ?_⟩
      rw [hget, hn, hlast]
      rfl
  · intro id hid
    rw [hget, lastDestination?_eq_none_iff.mpr hid]
    cases code.get? id <;> rfl

/-! ## How many -/

/-- What the jumps of the code ask for, each with its place. -/
def requests (code : Code) : List (NodeId × JumpSite) :=
  code.enumerate.filterMap fun e => (code.jumpSite? e.2).map fun site => (e.1, site)

/-- The requests are what the nodes ask for. -/
theorem mem_requests_iff : (place, site) ∈ code.requests ↔ code.Asks place site := by
  simp [requests, asks_iff, mem_enumerate_iff]

/-- The sites are the requests without their places. -/
theorem map_snd_requests (code : Code) : code.requests.map Prod.snd = code.jumpSites := by
  rw [requests, List.map_filterMap, jumpSites, enumerate, List.filterMap_map]
  have hnodes := congrArg (List.filterMap code.jumpSite?) (List.zipIdx_map_fst 0 code.nodes)
  rw [List.filterMap_map] at hnodes
  rw [← hnodes]
  congr 1
  funext e
  simp [Function.comp]

/-- No place has two requests. -/
theorem nodup_places (code : Code) : (code.requests.map Prod.fst).Nodup := by
  rw [List.Nodup, List.pairwise_map, requests, List.pairwise_filterMap]
  refine code.pairwise_enumerate.imp ?_
  rintro e e' hlt r hr r' hr'
  obtain ⟨_, -, rfl⟩ := Option.map_eq_some_iff.mp hr
  obtain ⟨_, -, rfl⟩ := Option.map_eq_some_iff.mp hr'
  exact Nat.ne_of_lt hlt

/-- The places that ask are those with a site. -/
theorem exists_asks_iff : (∃ site, code.Asks place site) ↔ place ∈ code.requests.map Prod.fst := by
  simp [← mem_requests_iff]

/-- The nodes of which an address is asked are the carriers of the sites. -/
theorem exists_asked_iff :
    (∃ place site, code.Asks place site ∧ site.carrier = id) ↔
      id ∈ code.jumpSites.map JumpSite.carrier := by
  simp only [List.mem_map, mem_jumpSites_iff]
  rw [exists_comm]
  simp

instance (code : Code) (place : NodeId) : Decidable (∃ site, code.Asks place site) :=
  decidable_of_iff _ exists_asks_iff.symm

instance (code : Code) (id : NodeId) :
    Decidable (∃ place site, code.Asks place site ∧ site.carrier = id) :=
  decidable_of_iff _ exists_asked_iff.symm

/-- The places that ask for an address to be carried. -/
def askers (code : Code) : Finset NodeId :=
  (Finset.range code.size).filter fun place => ∃ site, code.Asks place site

/-- The nodes of which an address is asked: those that relocation writes. -/
def written (code : Code) : Finset NodeId :=
  (Finset.range code.size).filter fun id => ∃ place site, code.Asks place site ∧ site.carrier = id

/-- There are as many asking places as there are sites. -/
theorem card_askers (code : Code) : code.askers.card = code.jumpSites.length := by
  have haskers : code.askers = (code.requests.map Prod.fst).toFinset := by
    refine filter_range_eq_toFinset (fun _ => exists_asks_iff) ?_
    rintro place ⟨_, n, _, hn, -⟩
    exact (List.getElem?_eq_some_iff.mp hn).1
  rw [haskers, List.toFinset_card_of_nodup code.nodup_places, List.length_map, ← map_snd_requests,
    List.length_map]

/-- The written nodes are the carriers of the sites, each counted once. -/
theorem written_eq (code : Code) :
    code.written = (code.jumpSites.map JumpSite.carrier).toFinset := by
  refine filter_range_eq_toFinset (fun _ => exists_asked_iff) ?_
  rintro id ⟨_, _, ⟨_, _, _, _, _, hcontains, _⟩, rfl⟩
  exact of_decide_eq_true hcontains

/-- No two nodes ask the same carrier. -/
def AsksApart (code : Code) : Prop :=
  ∀ place place' site site', code.Asks place site → code.Asks place' site' →
    site.carrier = site'.carrier →
    place = place'

/-- Carriers are asked apart exactly if none stands twice among the carriers of the sites. -/
theorem asksApart_iff : code.AsksApart ↔ (code.jumpSites.map JumpSite.carrier).Nodup := by
  have hrequests : code.requests.Nodup := code.nodup_places.of_map
  rw [← map_snd_requests, List.map_map, List.nodup_map_iff_inj_on hrequests]
  constructor
  · rintro h ⟨place, site⟩ hr ⟨place', site'⟩ hr' hcarrier
    have hplace :=
      h place place' site site' (mem_requests_iff.mp hr) (mem_requests_iff.mp hr') hcarrier
    exact (List.inj_on_of_nodup_map code.nodup_places) hr hr' hplace
  · intro h place place' site site' hr hr' hcarrier
    exact congrArg Prod.fst
      (h _ (mem_requests_iff.mpr hr) _ (mem_requests_iff.mpr hr') hcarrier)

/-- **What the number of relocated jumps counts.**  It counts the places that ask; the nodes that
are written, and carry an address after that, are as many only if no two places ask the same
carrier, and fewer otherwise. -/
structure CountsAskers (code relocated : Code) (count : Nat) : Prop where
  eq_card_askers : count = code.askers.card
  /-- The written nodes carry addresses. -/
  carries :
    ∀ id ∈ code.written, ∃ bytes, (relocated.get? id).bind Node.payload = some (.address bytes)
  /-- All other nodes stay. -/
  keeps : ∀ id, id ∉ code.written → relocated.get? id = code.get? id
  card_written_le : code.written.card ≤ count
  card_written_eq_iff : code.written.card = count ↔ code.AsksApart

/-- Relocation counts the places that ask. -/
theorem countsAskers_of_relocateJumps {relocated : Code} {count : Nat}
    (h : code.relocateJumps = (.ok count, relocated)) : code.CountsAskers relocated count := by
  have hreach :
      ∀ place site, code.Asks place site → site.destination.toNat ≤ JumpAddress.highest := by
    intro place site hasks
    refine Nat.le_of_not_lt fun hhigh => ?_
    obtain ⟨_, _, -, -, -, herror⟩ := exists_first_of_highest_lt ⟨place, site, hasks, hhigh⟩
    rw [h] at herror
    cases herror
  obtain ⟨_, hrelocated, hcarries, hkeeps⟩ := exists_relocated_of_le_highest hreach
  rw [h] at hrelocated
  cases hrelocated
  have hlength : (code.jumpSites.map JumpSite.carrier).length = code.jumpSites.length :=
    List.length_map _
  refine ⟨code.card_askers.symm, ?_, ?_, ?_, ?_⟩
  · intro id hid
    rw [written_eq, List.mem_toFinset, ← exists_asked_iff] at hid
    obtain ⟨_, _, n, bytes, -, -, -, -, -, hget⟩ := hcarries id hid
    exact ⟨bytes, by rw [hget]; rfl⟩
  · intro id hid
    rw [written_eq, List.mem_toFinset, ← exists_asked_iff] at hid
    exact hkeeps id fun place site hasks hcarrier => hid ⟨place, site, hasks, hcarrier⟩
  · rw [written_eq, ← hlength]
    exact List.toFinset_card_le _
  · rw [written_eq, asksApart_iff, ← hlength]
    exact Multiset.toFinset_card_eq_card_iff_nodup

end StackLinker.Code
