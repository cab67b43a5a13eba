import PushGateway.Base64
import PushGateway.Key.Verifier
/-!
Public keys by their two coordinates, each as base64url text, which is how tokens are checked with them.
-/

namespace PushGateway

/-- Both coordinates of a point, as text without padding. -/
structure KeyCoordinates where
  x : Bytes
  y : Bytes
  deriving DecidableEq, Repr

namespace KeyCoordinates

/-- The uncompressed encoding of the point, on the curve or not. -/
def point (c : KeyCoordinates) : Except Base64.Error Bytes := do
  let x ← Base64.decode Base64.urlSafe c.x
  let y ← Base64.decode Base64.urlSafe c.y
  return 4 :: x ++ y

end KeyCoordinates

namespace Verifier

def coordinates (v : Verifier) : KeyCoordinates where
  x := Base64.encode Base64.urlSafe (P256.octets32 v.point.x)
  y := Base64.encode Base64.urlSafe (P256.octets32 v.point.y)

/-- The key that tokens are checked with: an uncompressed point, put together from its coordinates. -/
def decodingKey (v : Verifier) : Except Base64.Error Bytes := v.coordinates.point

end Verifier
end PushGateway
