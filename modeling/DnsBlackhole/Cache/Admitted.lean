/-
  What `insert_cached_response` admits, for how long, and what it stores.

  The packets come from an upstream, over a transport that bounds them by
  `maxDnsPacketSize`; so the number of records before the additional section
  never saturates, and the OPT record of that section is found.

  * `admission_exact`: a packet has a time to live exactly if it is a positive or
    an authoritative negative answer, namely the least one of its records; and
    what is stored is that packet without the OPT record at its end.
-/
import DnsBlackhole.Cache.Timed
import DnsBlackhole.Protocol.Cacheable

namespace DnsBlackhole.Cache
open Lib Protocol

theorem exists_responseCacheTtl {packet : Packet} {config : DnsCacheConfig} {ttl : UInt32}
    (h : cacheTtlSeconds packet config = some ttl) : ∃ t, responseCacheTtl packet = some t := by
  obtain ⟨t, ht, -⟩ := Option.bind_eq_some_iff.1 h
  exact ⟨t, ht⟩

theorem insertCachedResponse_cases (hash : QueryCacheKey → ℕ) (order : CacheOrder)
    (s : DnsCacheStore) (config : DnsCacheConfig) (key : QueryCacheKey) (response : Packet)
    (now : ℕ) :
    insertCachedResponse hash order s config key response now = (false, s) ∨
    ∃ ttl stored, cacheTtlSeconds response config = some ttl ∧
      normalizeCachedResponse response = some stored ∧
      insertCachedResponse hash order s config key response now =
        s.insertWithTtl hash order key stored now ttl := by
  unfold insertCachedResponse
  cases httl : cacheTtlSeconds response config with
  | none => exact .inl rfl
  | some ttl =>
    cases hstored : normalizeCachedResponse response with
    | none => exact .inl rfl
    | some stored => exact .inr ⟨ttl, stored, rfl, rfl, rfl⟩

/-- **What may be cached, for how long, and as what**: `response_cache_ttl` is
    the least time to live of a cacheable packet, and the packet that is stored
    is the one admitted, up to an OPT record at its end, with the same time to
    live. -/
theorem admission_exact :
    (∀ (p : Packet) (t : UInt32), responseCacheTtl p = some t ↔
      ∃ qe an ns ar rs e qtype, Walks p qe an ns ar rs e ∧ readU16 p qe = some qtype ∧
        Cacheable (p[3]?.getD 0 &&& 0x0f) qtype (rs.take an.toNat)
          ((rs.drop an.toNat).take ns.toNat) ∧ IsMinTtl rs t) ∧
    ∀ (hash : QueryCacheKey → ℕ) (order : CacheOrder) (s : DnsCacheStore)
      (config : DnsCacheConfig) (key : QueryCacheKey) (response : Packet) (now : ℕ),
      response.length ≤ maxDnsPacketSize →
      insertCachedResponse hash order s config key response now = (false, s) ∨
      ∃ ttl stored, insertCachedResponse hash order s config key response now =
        s.insertWithTtl hash order key stored now ttl ∧ StoredFrom response stored := by
  refine ⟨fun p t => responseCacheTtl_eq_some_iff, ?_⟩
  intro hash order s config key response now hlen
  rcases insertCachedResponse_cases hash order s config key response now with h | h
  · exact .inl h
  · obtain ⟨ttl, stored, httl, hn, hins⟩ := h
    obtain ⟨t, hadm⟩ := exists_responseCacheTtl httl
    exact .inr ⟨ttl, stored, hins, storedFrom_normalize hlen hadm hn⟩

/-- `addressResponse` with an OPT record behind its address. -/
def addressOptResponse : Packet :=
  [0, 9, 129, 128, 0, 1, 0, 1, 0, 0, 0, 1, 1, 97, 0, 0, 1, 0, 1,
    192, 12, 0, 1, 0, 1, 0, 0, 0, 60, 0, 4, 192, 0, 2, 1, 0, 0, 41, 4, 208, 0, 0, 0, 0, 0, 0]

/-- The response is stored without its OPT record, for a minute. -/
theorem addressOptResponse_stored (s : DnsCacheStore) (config : DnsCacheConfig) :
    responseCacheTtl addressOptResponse = some 60 ∧
    normalizeCachedResponse addressOptResponse = some addressResponse ∧
    (insertCachedResponse (fun _ => 0) storedOrder s config optKey addressOptResponse 0 =
        (false, s) ∨
      ∃ ttl stored, insertCachedResponse (fun _ => 0) storedOrder s config optKey
          addressOptResponse 0 = s.insertWithTtl (fun _ => 0) storedOrder optKey stored 0 ttl ∧
        StoredFrom addressOptResponse stored) :=
  ⟨by decide, by decide, admission_exact.2 _ _ _ _ _ _ _ (by decide)⟩

end DnsBlackhole.Cache
