import Tailcat.Library.Utf8

/-!
# Connection information

`tc_conn_info` of `include/tc/addr.h`: what an address encodes and a key file stores. A string is a
byte string without the terminator, an array with a count is a list, and a key with a flag for its
presence is an option; the sizes of the arrays are in `ConnInfo.Fits`.
-/

namespace Addr

/-- `TC_ADDR_MAX_REGIONS`. -/
def maxRegions : ℕ := 2
/-- `TC_ADDR_MAX_NODES`. -/
def maxNodes : ℕ := 8
/-- `TC_DNS_NAME_MAX`. -/
def dnsNameMax : ℕ := 256
/-- `TC_REGION_CODE_MAX`. -/
def regionCodeMax : ℕ := 64
/-- `TC_REGION_NAME_MAX`. -/
def regionNameMax : ℕ := 64
/-- `TC_IP_STR_MAX`. -/
def ipStrMax : ℕ := 46

abbrev Key := Vector UInt8 32

structure Node where
  name : List UInt8
  hostname : List UInt8
  certName : List UInt8
  ipv4 : List UInt8
  ipv6 : List UInt8
  regionId : Int64
  stunPort : Int32
  derpPort : Int32
  insecureForTests : Bool
  deriving DecidableEq

/-- A node after `memset`. -/
def Node.zero : Node := ⟨[], [], [], [], [], 0, 0, 0, false⟩

structure Region where
  regionId : Int64
  regionCode : List UInt8
  regionName : List UInt8
  nodes : List Node
  deriving DecidableEq

/-- A region after `memset`. -/
def Region.zero : Region := ⟨0, [], [], []⟩

structure ConnInfo where
  serverPublic : Key
  serverDiscoPublic : Option Key
  presharedKey : Option Key
  regions : List Region
  regionId : Int64
  deriving DecidableEq

/-- A connection information after `memset`. -/
def ConnInfo.zero : ConnInfo := ⟨Vector.replicate 32 0, none, none, [], 0⟩

/-! ## What the fields can hold -/

/-- A NUL-terminated string in UTF-8, in a field of `cap` bytes. -/
structure IsText (cap : ℕ) (s : List UInt8) : Prop where
  fits : s.length < cap
  nul : 0 ∉ s
  utf8 : Utf8.valid s = true

/-- The strings of a node are strings in their fields. -/
structure Node.Fits (n : Node) : Prop where
  name : IsText dnsNameMax n.name
  hostname : IsText dnsNameMax n.hostname
  certName : IsText dnsNameMax n.certName
  ipv4 : IsText ipStrMax n.ipv4
  ipv6 : IsText ipStrMax n.ipv6

/-- The strings of a region are strings in their fields, and its nodes fit the array. -/
structure Region.Fits (reg : Region) : Prop where
  regionCode : IsText regionCodeMax reg.regionCode
  regionName : IsText regionNameMax reg.regionName
  count : reg.nodes.length ≤ maxNodes
  nodes : ∀ n ∈ reg.nodes, n.Fits

structure ConnInfo.Fits (ci : ConnInfo) : Prop where
  count : ci.regions.length ≤ maxRegions
  regions : ∀ reg ∈ ci.regions, reg.Fits

end Addr
