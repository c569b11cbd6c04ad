import Tugboat.Lib.Hex

/-!
# The interface of the runtimes

The agent calls a runtime with a request that names the machine and what it is to have.  A hotplug
request changes a running machine.  Devices to add are described in full, devices to remove are
named by an identifier that is formed from the digest of their MAC address or path.  SHA-256 is a
parameter.
-/

namespace Tugboat.VmRuntime

open Hex

/-! ## Requests -/

structure VmNetworkConfig where
  ifaceName : String
  macAddress : String
  deriving DecidableEq, Repr

inductive VmVolumeKind
  | block
  | filesystem
  deriving DecidableEq, Repr

structure VmVolumeConfig where
  hostPath : String
  kind : VmVolumeKind := .block
  format : String := "raw"
  readOnly : Bool := false
  mountTag : String := ""
  deriving DecidableEq, Repr

structure VmCpuHotplugConfig where
  cores : ℕ
  deriving DecidableEq, Repr

structure VmMemoryHotplugConfig where
  size : ℕ
  deriving DecidableEq, Repr

structure VmHotplugRequest where
  id : String
  cpu : Option VmCpuHotplugConfig := none
  memory : Option VmMemoryHotplugConfig := none
  nicsAdded : List VmNetworkConfig := []
  nicsRemoved : List String := []
  volumesAdded : List VmVolumeConfig := []
  volumesRemoved : List String := []
  deriving DecidableEq, Repr

/-! ## Identifiers of devices -/

section Identifiers

variable (sha256 : String → Digest)

def sanitizeIdentifier (value : String) : String := (sha256 value).hex

def nicDeviceId (macAddress : String) : String := "nic-" ++ sanitizeIdentifier sha256 macAddress

def volumeDeviceId (hostPath : String) : String := "dev-" ++ sanitizeIdentifier sha256 hostPath

end Identifiers

end Tugboat.VmRuntime
