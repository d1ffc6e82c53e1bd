/-
  System hosts beside the user's rewrites (`merge_hosts_file` of
  `dns/rewrites.rs`).

  A hosts file is read as what each line says, an address with host names.  One
  line after the other fills what the table answers nothing for:

  * `lookup_mergeHost`: one name of a line changes the answer for that name only;
  * `addressFor_mergeHostsFile`: an address is that of the table, or else that of
    the first line giving the name in the family.
-/
import DnsBlackhole.Lib.Fallible
import DnsBlackhole.Service.Build

namespace DnsBlackhole.Service
open Filter Text

/-! ## What a table answers -/

/-- The family of an address. -/
def ipFamily (ip : IpAddr) : IpFamily := (ipParts ip).1

/-- The address of a target in a family. -/
def targetAddress (target : RewriteTarget) : IpFamily → Option IpAddr
  | .v4 => target.ipv4.map .v4
  | .v6 => target.ipv6.map .v6

/-- The address that a table answers for a domain in a family. -/
def addressFor (rewrites : CompiledRewrites) (domain : Text) (family : IpFamily) : Option IpAddr :=
  (rewrites.lookup domain).bind fun target => targetAddress target family

theorem targetAddress_default (family : IpFamily) : targetAddress {} family = none := by
  cases family <;> rfl

theorem targetAddress_lookup (rewrites : CompiledRewrites) (domain : Text) (family : IpFamily) :
    targetAddress ((rewrites.lookup domain).getD {}) family = addressFor rewrites domain family := by
  cases h : rewrites.lookup domain with
  | none => simp only [addressFor, h, Option.getD_none, Option.bind_none, targetAddress_default]
  | some target => simp only [addressFor, h, Option.getD_some, Option.bind_some]

theorem targetAddress_fillAddress (target : RewriteTarget) (ip : IpAddr) (family : IpFamily) :
    targetAddress (fillAddress target ip) family =
      (targetAddress target family).or (if ipFamily ip = family then some ip else none) := by
  obtain ⟨ipv4, ipv6⟩ := target
  cases ip <;> cases family <;> cases ipv4 <;> cases ipv6 <;> rfl

/-! ## What a hosts file says -/

/-- The host name that a word of a hosts line stands for. -/
def hostName (word : Text) : Option Text :=
  let host := (word.trimEndMatches '.').toAsciiLowercase
  if isValidHostname host then some host else none

/-- The address of a hosts line and the words behind it. -/
def hostsLine (line : Text) : Option (IpAddr × List Text) :=
  match Text.splitWhitespace (line.takeWhile (· ≠ '#')) with
  | ip :: hosts => (parseIpAddr ip).map fun ip => (ip, hosts)
  | [] => none

/-- A line gives a name an address. -/
def GivesHost (line name : Text) (ip : IpAddr) : Prop :=
  ∃ hosts, hostsLine line = some (ip, hosts) ∧ ∃ word ∈ hosts, hostName word = some name

/-- The address that a line gives a name, in a family. -/
def lineAddress (name : Text) (family : IpFamily) (line : Text) : Option IpAddr :=
  (hostsLine line).bind fun (ip, hosts) =>
    if ipFamily ip = family ∧ ∃ word ∈ hosts, hostName word = some name then some ip else none

/-- The address of the first line giving a name one, in a family. -/
def firstAddress (contents name : Text) (family : IpFamily) : Option IpAddr :=
  contents.lines.findSome? (lineAddress name family)

theorem lineAddress_eq_some {name : Text} {family : IpFamily} {line : Text} {ip : IpAddr} :
    lineAddress name family line = some ip ↔ GivesHost line name ip ∧ ipFamily ip = family := by
  rw [lineAddress, Option.bind_eq_some_iff]
  constructor
  · rintro ⟨⟨ip', hosts⟩, hline, h⟩
    obtain ⟨⟨hfamily, hword⟩, h⟩ := Option.ite_none_right_eq_some.1 h
    cases h
    exact ⟨⟨hosts, hline, hword⟩, hfamily⟩
  · rintro ⟨⟨hosts, hline, hword⟩, hfamily⟩
    exact ⟨(ip, hosts), hline, if_pos ⟨hfamily, hword⟩⟩

/-- It is the address of a line, and no line before gives the name one in the family. -/
theorem firstAddress_eq_some {contents name : Text} {family : IpFamily} {ip : IpAddr} :
    firstAddress contents name family = some ip ↔
      ∃ before line after, contents.lines = before ++ line :: after ∧
        (GivesHost line name ip ∧ ipFamily ip = family) ∧
        ∀ earlier ∈ before, ∀ ip', ipFamily ip' = family → ¬ GivesHost earlier name ip' := by
  rw [firstAddress, List.findSome?_eq_some_iff]
  simp only [lineAddress_eq_some, Option.eq_none_iff_forall_ne_some, ne_eq, not_and]
  constructor <;>
  · rintro ⟨before, line, after, hlines, hline, hbefore⟩
    exact ⟨before, line, after, hlines, hline, fun earlier hmem ip' h h' =>
      hbefore earlier hmem ip' h' h⟩

/-! ## Merging -/

theorem isValidHostname_nil : isValidHostname [] = false := rfl

theorem mergeHost_eq (ip : IpAddr) (rewrites : CompiledRewrites) (word : Text) :
    mergeHost ip rewrites word = match hostName word with
      | none => rewrites
      | some host =>
        { rewrites with
          exact := rewrites.exact.insert host
            (fillAddress ((rewrites.lookup host).getD {}) ip) } := by
  rw [mergeHost, hostName]
  generalize (word.trimEndMatches '.').toAsciiLowercase = host
  by_cases hvalid : isValidHostname host
  · have hne : host ≠ [] := by
      rintro rfl
      rw [isValidHostname_nil] at hvalid
      cases hvalid
    simp only [hne, hvalid, Bool.not_true, Bool.false_eq_true, or_self, if_false, if_true]
    cases h : rewrites.exact.lookup host with
    | none => rw [Option.getD_none]
    | some target => simp only [CompiledRewrites.lookup, h, Option.getD_some]
  · simp only [hvalid, Bool.not_false, or_true, if_true]
    rfl

theorem lookup_insert_exact (rewrites : CompiledRewrites) (host domain : Text)
    (target : RewriteTarget) :
    CompiledRewrites.lookup { rewrites with exact := rewrites.exact.insert host target } domain =
      if domain = host then some target else rewrites.lookup domain := by
  rw [CompiledRewrites.lookup]
  simp only [Lib.HashMap.lookup_insert_eq_ite]
  split_ifs with h
  · rfl
  · rw [CompiledRewrites.lookup]

theorem lookup_mergeHost (ip : IpAddr) (rewrites : CompiledRewrites) (word domain : Text) :
    (mergeHost ip rewrites word).lookup domain =
      if hostName word = some domain then
        some (fillAddress ((rewrites.lookup domain).getD {}) ip)
      else rewrites.lookup domain := by
  rw [mergeHost_eq]
  cases hostName word with
  | none => simp only [reduceCtorEq, if_false]
  | some host =>
    simp only [lookup_insert_exact, Option.some.injEq]
    by_cases h : domain = host
    · rw [if_pos h, if_pos h.symm, h]
    · rw [if_neg h, if_neg fun h' => h h'.symm]

theorem addressFor_mergeHost (ip : IpAddr) (rewrites : CompiledRewrites) (word domain : Text)
    (family : IpFamily) :
    addressFor (mergeHost ip rewrites word) domain family =
      (addressFor rewrites domain family).or
        (if ipFamily ip = family ∧ hostName word = some domain then some ip else none) := by
  rw [addressFor, lookup_mergeHost]
  by_cases h : hostName word = some domain
  · simp only [h, if_true, and_true, Option.bind_some, targetAddress_fillAddress,
      targetAddress_lookup]
  · simp only [h, if_false, and_false, Option.or_none, addressFor]

/-- One line of a hosts file. -/
def mergeHostsLine (rewrites : CompiledRewrites) (line : Text) : CompiledRewrites :=
  match hostsLine line with
  | some (ip, hosts) => hosts.foldl (mergeHost ip) rewrites
  | none => rewrites

theorem mergeHostsFile_eq (rewrites : CompiledRewrites) (contents : Text) :
    mergeHostsFile rewrites contents = contents.lines.foldl mergeHostsLine rewrites := by
  rw [mergeHostsFile]
  congr 1
  funext rewrites line
  rw [mergeHostsLine, hostsLine]
  cases Text.splitWhitespace (line.takeWhile (· ≠ '#')) with
  | nil => rfl
  | cons ip hosts => dsimp only; cases parseIpAddr ip <;> rfl

theorem lookup_foldl_mergeHost {ip : IpAddr} {hosts : List Text} {domain : Text}
    (h : ∀ word ∈ hosts, hostName word ≠ some domain) (rewrites : CompiledRewrites) :
    (hosts.foldl (mergeHost ip) rewrites).lookup domain = rewrites.lookup domain := by
  induction hosts generalizing rewrites with
  | nil => rfl
  | cons word hosts ih =>
    have hword := h word List.mem_cons_self
    rw [List.foldl_cons, ih (fun w hw => h w (List.mem_cons_of_mem _ hw)), lookup_mergeHost,
      if_neg hword]

theorem lookup_mergeHostsLine {line domain : Text} (h : ∀ ip, ¬ GivesHost line domain ip)
    (rewrites : CompiledRewrites) :
    (mergeHostsLine rewrites line).lookup domain = rewrites.lookup domain := by
  rw [mergeHostsLine]
  cases hline : hostsLine line with
  | none => rfl
  | some said =>
    obtain ⟨ip, hosts⟩ := said
    exact lookup_foldl_mergeHost (fun word hword hname =>
      h ip ⟨hosts, hline, word, hword, hname⟩) rewrites

theorem lookup_mergeHostsFile {contents domain : Text}
    (h : ∀ line ∈ contents.lines, ∀ ip, ¬ GivesHost line domain ip) (rewrites : CompiledRewrites) :
    (mergeHostsFile rewrites contents).lookup domain = rewrites.lookup domain := by
  rw [mergeHostsFile_eq]
  generalize contents.lines = lines at h ⊢
  induction lines generalizing rewrites with
  | nil => rfl
  | cons line lines ih =>
    rw [List.foldl_cons, ih _ (fun l hl => h l (List.mem_cons_of_mem _ hl)),
      lookup_mergeHostsLine (h line List.mem_cons_self)]

theorem addressFor_mergeHostsLine (rewrites : CompiledRewrites) (line domain : Text)
    (family : IpFamily) :
    addressFor (mergeHostsLine rewrites line) domain family =
      (addressFor rewrites domain family).or (lineAddress domain family line) := by
  rw [mergeHostsLine, lineAddress]
  cases hostsLine line with
  | none => rw [Option.bind_none, Option.or_none]
  | some said =>
    obtain ⟨ip, hosts⟩ := said
    dsimp only [Option.bind_some]
    rw [Lib.foldl_or (addressFor · domain family)
      (fun rewrites word => addressFor_mergeHost ip rewrites word domain family)]
    congr 1
    -- every word of the line has the same address
    by_cases h : ipFamily ip = family ∧ ∃ word ∈ hosts, hostName word = some domain
    · rw [if_pos h]
      obtain ⟨hfamily, word, hword, hname⟩ := h
      induction hosts with
      | nil => cases hword
      | cons first hosts ih =>
        rw [List.findSome?_cons]
        by_cases hfirst : hostName first = some domain
        · rw [if_pos ⟨hfamily, hfirst⟩]
        · rw [if_neg fun h => hfirst h.2]
          rcases List.mem_cons.1 hword with rfl | hword
          · exact absurd hname hfirst
          · exact ih hword
    · rw [if_neg h, List.findSome?_eq_none_iff]
      intro word hword
      rw [if_neg fun h' => h ⟨h'.1, word, hword, h'.2⟩]

/-- An address behind merging is that of the table, or else that of the first line
    giving the name in the family. -/
theorem addressFor_mergeHostsFile (rewrites : CompiledRewrites) (contents domain : Text)
    (family : IpFamily) :
    addressFor (mergeHostsFile rewrites contents) domain family =
      (addressFor rewrites domain family).or (firstAddress contents domain family) := by
  rw [mergeHostsFile_eq, Lib.foldl_or (addressFor · domain family)
    (fun rewrites line => addressFor_mergeHostsLine rewrites line domain family), firstAddress]

/-- **System hosts never override a rewrite**: every address answered before is
    answered, the answers for names that no line gives stay as they were, and a
    name that the table left empty in a family has the address of the first line
    giving it in the family, if any. -/
theorem mergeHostsFile_fills (rewrites : CompiledRewrites) (contents : Text) :
    (∀ domain family ip, addressFor rewrites domain family = some ip →
      addressFor (mergeHostsFile rewrites contents) domain family = some ip) ∧
    (∀ domain, (∀ line ∈ contents.lines, ∀ ip, ¬ GivesHost line domain ip) →
      (mergeHostsFile rewrites contents).lookup domain = rewrites.lookup domain) ∧
    (∀ domain family, addressFor rewrites domain family = none →
      addressFor (mergeHostsFile rewrites contents) domain family =
        firstAddress contents domain family) := by
  refine ⟨fun domain family ip h => ?_, fun domain h => lookup_mergeHostsFile h rewrites,
    fun domain family h => ?_⟩
  · rw [addressFor_mergeHostsFile, h, Option.some_or]
  · rw [addressFor_mergeHostsFile, h, Option.none_or]

example : addressFor (mergeHostsFile (compileRewrites "*.lan 10.0.0.1".toList)
    "10.0.0.2 Nas.lan. # nas\nfd00::1 nas.lan".toList) "nas.lan".toList .v6 =
      parseIpAddr "fd00::1".toList := by
  decide +kernel

end DnsBlackhole.Service
