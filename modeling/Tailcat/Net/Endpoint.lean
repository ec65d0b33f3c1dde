import Tailcat.Library.Fields

/-!
# Endpoints

`tc_endpoint` of `src/endpoint.c`: an address with a port. The source keeps the length of the address
beside its bytes, which is 0, 4 or 16; here the address carries its length in its constructor, so that
`tc_endpoint_equal` is equality.
-/

namespace Net

open ByteOrder Fields

inductive Address
  /-- `ip_len` is zero. -/
  | unset
  | v4 (bytes : Vector UInt8 4)
  | v6 (bytes : Vector UInt8 16)
  deriving DecidableEq

structure Endpoint where
  ip : Address
  port : UInt16
  deriving DecidableEq

def v4MappedPrefix : List UInt8 := [0, 0, 0, 0, 0, 0, 0, 0, 0, 0, 0xff, 0xff]

namespace Endpoint

/-- `tc_endpoint_is_candidate`: somewhere a peer could reach us. -/
def isCandidate (ep : Endpoint) : Bool :=
  if ep.port = 0 then false
  else
    match ep.ip with
    | .unset => false
    | .v4 ip =>
      let a := ip.get 0
      let b := ip.get 1
      -- this network, loopback, link-local, multicast and reserved, carrier-grade NAT
      !(a = 0 || a = 127 || (a = 169 && b = 254) || a ≥ 224 || (a = 100 && b ≥ 64 && b ≤ 127))
    | .v6 ip =>
      let bytes := ip.toList
      -- unspecified, loopback, link-local, multicast, IPv4-mapped
      !(bytes.all (· = 0) || (ip.get 15 = 1 && (bytes.take 15).all (· = 0)) ||
        (ip.get 0 = 0xfe && ip.get 1 &&& 0xc0 = 0x80) || ip.get 0 = 0xff ||
        bytes.take 12 = v4MappedPrefix)

/-- `tc_endpoint_to16`: an IPv4 address in its IPv6 form. -/
def to16 (ep : Endpoint) : List UInt8 :=
  match ep.ip with
  | .v6 ip => ip.toList
  | .v4 ip => v4MappedPrefix ++ ip.toList
  | .unset => v4MappedPrefix ++ [0, 0, 0, 0]

/-- `tc_endpoint_from16`, on the sixteen bytes at index `i`. -/
def from16 (p : List UInt8) (i : ℕ) (port : UInt16) : Endpoint :=
  if slice p i 12 = v4MappedPrefix then { ip := .v4 (bytesAt 4 p (i + 12)), port }
  else { ip := .v6 (bytesAt 16 p i), port }

end Endpoint

end Net
