/-
  The table of local rewrites (`dns/rewrites.rs`) and sets of domains
  (`DomainSet` of `dns/rules.rs`): both are looked up for a domain and then for
  the domains above it, from the longest.
-/
import DnsBlackhole.Rules.Match

namespace DnsBlackhole.Filter
open Lib Rules

/-- What a rewrite answers, for the two families of addresses. -/
structure RewriteTarget where
  ipv4 : Option Ipv4Addr := none
  ipv6 : Option Ipv6Addr := none
  deriving DecidableEq

/-! ## Rewrites -/

structure CompiledRewrites where
  exact : HashMap Text RewriteTarget := ∅
  wildcard : HashMap Text RewriteTarget := ∅

namespace CompiledRewrites

def isEmpty (rewrites : CompiledRewrites) : Bool :=
  rewrites.exact.entries.isEmpty && rewrites.wildcard.entries.isEmpty

def lookup (rewrites : CompiledRewrites) (domain : Text) : Option RewriteTarget :=
  match rewrites.exact.lookup domain with
  | some target => some target
  | none =>
    match rewrites.wildcard.lookup domain with
    | some target => some target
    | none => (parents domain).findSome? fun name => rewrites.wildcard.lookup name

theorem lookup_of_isEmpty {rewrites : CompiledRewrites} (h : rewrites.isEmpty)
    (domain : Text) : rewrites.lookup domain = none := by
  obtain ⟨⟨exact, hexact⟩, ⟨wildcard, hwildcard⟩⟩ := rewrites
  simp only [isEmpty, Bool.and_eq_true, List.isEmpty_iff] at h
  obtain ⟨rfl, rfl⟩ := h
  have hnone : ∀ name, (⟨[], hexact⟩ : HashMap Text RewriteTarget).lookup name = none :=
    fun _ => rfl
  simp only [lookup, hnone, List.findSome?_eq_none_iff, implies_true]

end CompiledRewrites

/-! ## Sets of domains -/

structure DomainSet where
  domains : List Text := []

/-- Whether a domain or one above it is in the set. -/
def DomainSet.contains (set : DomainSet) (domain : Text) : Bool :=
  if set.domains.isEmpty then false
  else set.domains.contains domain || (parents domain).any fun name => set.domains.contains name

end DnsBlackhole.Filter
