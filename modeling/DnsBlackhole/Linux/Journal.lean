/-
  The two files that a takeover of the system DNS changes on Linux, and the state file that
  remembers what they were (`linux_system_dns.rs`).

  * `restored_captureFile`: a snapshot is restored to the file that was captured, unless
    that was a link whose target is not UTF-8;
  * `snapshotMatchesCurrent_captured`: it matches that file nevertheless.
-/
import DnsBlackhole.Admin.Config
import DnsBlackhole.Protocol.Security

namespace DnsBlackhole.Linux
open Admin (AppConfig)

/-! ## Files -/

/-- What is at a path; a mode is the permissions and the bits above them. -/
inductive Node
  | missing
  | regular (content : List UInt8) (mode : BitVec 12)
  | symlink (target : List UInt8)
  | directory
  | special
  deriving DecidableEq

inductive FileSnapshot
  | missing
  | regular (content : List UInt8) (mode : BitVec 12)
  | symlink (target : Text)
  deriving DecidableEq

/-- The other files, as a call finds them at the ends of links. -/
structure Host where
  /-- `fs::read` -/
  read : List UInt8 → Option (List UInt8)
  /-- `fs::canonicalize` -/
  canonicalize : List UInt8 → Option (List UInt8)

inductive ManagedFile
  | dropIn
  | resolvConf
  deriving DecidableEq

def ManagedFile.path : ManagedFile → Text
  | dropIn => "/etc/systemd/resolved.conf.d/dnsblackhole.conf".toList
  | resolvConf => "/etc/resolv.conf".toList

/-- `RESOLVED_RESOLV_CONF` -/
def resolvedResolvConf : Text := "/run/systemd/resolve/resolv.conf".toList

/-- `RESOLVED_STUB_RESOLV_CONF` -/
def resolvedStubResolvConf : Text := "/run/systemd/resolve/stub-resolv.conf".toList

/-- `MANAGED_DROP_IN` -/
def managedDropIn : Text :=
  Text.join ["# Managed by DnsBlackhole. Do not edit while system DNS is managed.".toList,
    "[Resolve]".toList, "DNS=127.0.0.1".toList, "FallbackDNS=".toList, "Domains=~.".toList,
    "DNSStubListener=no".toList, []] ['\n']

/-- `fs::read` -/
def readContent (host : Host) : Node → Option (List UInt8)
  | .regular content _ => some content
  | .symlink target => host.read target
  | .missing | .directory | .special => none

/-- `Path::exists` -/
def pathExists (host : Host) : Node → Bool
  | .missing => false
  | .symlink target => (host.canonicalize target).isSome
  | .regular _ _ | .directory | .special => true

def currentSymlinkTarget : Node → Option Text
  | .symlink target => some (fromUtf8Lossy target)
  | _ => none

def resolvedSymlinkTarget (host : Host) : Node → Option Text
  | .symlink target => (host.canonicalize target).map fromUtf8Lossy
  | _ => none

def captureFile (file : ManagedFile) : Node → Except Text FileSnapshot
  | .missing => .ok .missing
  | .symlink target => .ok (.symlink (fromUtf8Lossy target))
  | .regular content mode => .ok (.regular content mode)
  | .directory | .special => .error (file.path ++ " 既不是普通文件也不是符号链接".toList)

/-- The file that `restore_snapshot` puts at the path. -/
def FileSnapshot.restored : FileSnapshot → Node
  | missing => .missing
  | regular content mode => .regular content mode
  | symlink target => .symlink target.asBytes

def snapshotMatchesCurrent (node : Node) : FileSnapshot → Bool
  | .missing => node = .missing
  | .regular content mode => node = .regular content mode
  | .symlink target => currentSymlinkTarget node = some target

/-! ## The state file -/

structure SystemDnsState where
  desired : Bool
  effective : Bool
  pending : Bool
  originalResolvConf : FileSnapshot
  originalDropIn : FileSnapshot
  managedDropInSha256 : Text
  managedResolvConfTarget : Text
  lastError : Option Text

namespace SystemDnsState

/-- The snapshot of a file. -/
def original (state : SystemDnsState) : ManagedFile → FileSnapshot
  | .dropIn => state.originalDropIn
  | .resolvConf => state.originalResolvConf

/-- `begin_restore` -/
def beginRestore (preserveDesired : Bool) (state : SystemDnsState) : SystemDnsState :=
  { state with pending := true, desired := state.desired && preserveDesired }

/-- `finish_restore` -/
def finishRestore (state : SystemDnsState) : SystemDnsState :=
  { state with effective := false, pending := false, lastError := none }

end SystemDnsState

/-- The files, the state file, and the configurations in the database and in memory. -/
structure World where
  dropIn : Node
  resolvConf : Node
  journal : Option SystemDnsState
  stored : AppConfig
  memory : AppConfig

namespace World

def node (w : World) : ManagedFile → Node
  | .dropIn => w.dropIn
  | .resolvConf => w.resolvConf

def write (file : ManagedFile) (node : Node) (w : World) : World :=
  match file with
  | .dropIn => { w with dropIn := node }
  | .resolvConf => { w with resolvConf := node }

end World

/-! ## Who wrote the files -/

section
variable (sha256Hex : List UInt8 → Text) (host : Host)

/-- The drop-in has the content of the managed one. -/
def dropInManaged (state : SystemDnsState) (w : World) : Bool :=
  (readContent host w.dropIn).any fun content => sha256Hex content = state.managedDropInSha256

/-- The link leads where the managed one does. -/
def resolvConfManaged (state : SystemDnsState) (w : World) : Bool :=
  currentSymlinkTarget w.resolvConf = some state.managedResolvConfTarget

def managedFilesMatch (state : SystemDnsState) (w : World) : Bool :=
  dropInManaged sha256Hex host state w && resolvConfManaged state w

def transitionFilesAreOwned (state : SystemDnsState) (w : World) : Bool :=
  let dropInSafe :=
    (match readContent host w.dropIn with
    | some content => decide (sha256Hex content = state.managedDropInSha256)
    | none => decide (state.originalDropIn = .missing)) ||
      snapshotMatchesCurrent w.dropIn state.originalDropIn
  let resolvSafe := resolvConfManaged state w ||
    snapshotMatchesCurrent w.resolvConf state.originalResolvConf
  dropInSafe && resolvSafe

end

/-! ## Snapshots -/

/-- The node is not a link whose target is not UTF-8. -/
def Node.LinksUtf8 : Node → Prop
  | .symlink target => (fromUtf8Lossy target).asBytes = target
  | _ => True

instance (node : Node) : Decidable node.LinksUtf8 := by
  cases node <;> unfold Node.LinksUtf8 <;> infer_instance

theorem restored_captureFile {file : ManagedFile} {node : Node} {snapshot : FileSnapshot}
    (h : captureFile file node = .ok snapshot) : snapshot.restored = node ↔ node.LinksUtf8 := by
  cases node with
  | missing =>
    cases h
    exact iff_of_true rfl trivial
  | regular content mode =>
    cases h
    exact iff_of_true rfl trivial
  | symlink target =>
    cases h
    simp only [FileSnapshot.restored, Node.symlink.injEq, Node.LinksUtf8]
  | directory => cases h
  | special => cases h

theorem snapshotMatchesCurrent_captured {file : ManagedFile} {node : Node}
    {snapshot : FileSnapshot} (h : captureFile file node = .ok snapshot) :
    snapshotMatchesCurrent node snapshot = true := by
  cases node with
  | missing =>
    cases h
    rfl
  | regular content mode =>
    cases h
    exact decide_eq_true rfl
  | symlink target =>
    cases h
    exact decide_eq_true rfl
  | directory => cases h
  | special => cases h

/-! ## Writing a file -/

namespace World
variable (w : World) (file : ManagedFile) (node : Node)

@[simp] theorem node_write_self : (w.write file node).node file = node := by
  cases file <;> rfl

theorem node_write_of_ne {file' : ManagedFile} (h : file' ≠ file) :
    (w.write file node).node file' = w.node file' := by
  cases file <;> cases file' <;> first | rfl | exact absurd rfl h

@[simp] theorem journal_write : (w.write file node).journal = w.journal := by
  cases file <;> rfl

@[simp] theorem stored_write : (w.write file node).stored = w.stored := by
  cases file <;> rfl

@[simp] theorem memory_write : (w.write file node).memory = w.memory := by
  cases file <;> rfl

end World

end DnsBlackhole.Linux
