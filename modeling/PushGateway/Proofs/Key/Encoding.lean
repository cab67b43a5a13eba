import Mathlib.Algebra.Group.Nat.Defs
import PushGateway.Key.Coordinates
import PushGateway.Key.Signing
import PushGateway.Proofs.Base64.RoundTrip

namespace PushGateway

namespace P256

theorem length_octets32 (n : Nat) : (octets32 n).length = 32 := by
  simp only [octets32, List.length_map, List.length_range]

theorem ofOctets_concat (bs : Bytes) (b : UInt8) : ofOctets (bs ++ [b]) = ofOctets bs * 256 + b.toNat := by
  simp only [ofOctets, List.foldl_append, List.foldl_cons, List.foldl_nil]

theorem ofOctets_leading {n : Nat} (bound : n < 2 ^ 256) (k : Nat) (hk : k ≤ 32) :
    ofOctets ((List.range k).map fun i => (n >>> (8 * (31 - i))).toUInt8) = n >>> (8 * (32 - k)) := by
  induction k with
  | zero =>
    rw [Nat.shiftRight_eq_div_pow, Nat.div_eq_of_lt bound]
    rfl
  | succ k ih =>
    have shorter : n >>> (8 * (32 - k)) = n >>> (8 * (31 - k)) / 256 := by
      rw [show 8 * (32 - k) = 8 * (31 - k) + 8 from by omega, Nat.shiftRight_add]
      exact Nat.shiftRight_eq_div_pow _ 8
    have octet : (n >>> (8 * (31 - k))).toUInt8.toNat = n >>> (8 * (31 - k)) % 256 := rfl
    rw [List.range_succ, List.map_append, List.map_singleton, ofOctets_concat, ih (by omega), shorter,
      octet, show 32 - (k + 1) = 31 - k from by omega]
    exact Nat.div_add_mod' _ 256

theorem ofOctets_octets32 {n : Nat} (bound : n < 2 ^ 256) : ofOctets (octets32 n) = n :=
  ofOctets_leading bound 32 (Nat.le_refl 32)

theorem fieldPrime_lt : fieldPrime < 2 ^ 256 := by decide

theorem order_lt : order < 2 ^ 256 := by decide

theorem fmul_lt (a b : Nat) : fmul a b < fieldPrime := Nat.mod_lt _ (by decide)

theorem Jacobian.toPoint?_reduced {j : Jacobian} {p : Point} (affine : j.toPoint? = some p) :
    p.x < fieldPrime ∧ p.y < fieldPrime := by
  unfold toPoint? at affine
  split at affine
  · exact absurd affine (Option.some_ne_none p).symm
  · rw [← Option.some.inj affine]
    exact ⟨fmul_lt _ _, fmul_lt _ _⟩

namespace Point

theorem length_encode (p : Point) : p.encode.length = 65 := by
  simp only [encode, List.length_append, List.length_cons, length_octets32]

theorem decode?_encode {p : Point} (hx : p.x < fieldPrime) (hy : p.y < fieldPrime) :
    decode? p.encode = some p := by
  have long : (octets32 p.x ++ octets32 p.y).length = 64 := by
    simp only [List.length_append, length_octets32]
  have x : ofOctets (octets32 p.x) = p.x := ofOctets_octets32 (Nat.lt_trans hx fieldPrime_lt)
  have y : ofOctets (octets32 p.y) = p.y := ofOctets_octets32 (Nat.lt_trans hy fieldPrime_lt)
  rw [encode, List.cons_append, decode?, if_pos long, List.take_left' (length_octets32 _),
    List.drop_left' (length_octets32 _), x, y]

theorem onCurve_reduced {p : Point} (on : p.onCurve = true) : p.x < fieldPrime ∧ p.y < fieldPrime := by
  unfold onCurve at on
  have all := of_decide_eq_true on
  exact ⟨all.1, all.2.1⟩

end Point
end P256

namespace Signature

theorem length_encodeFixed (sig : Signature) : sig.encodeFixed.length = fixedLength := by
  simp only [encodeFixed, List.length_append, P256.length_octets32, fixedLength]

theorem decodeFixed?_encodeFixed {sig : Signature} (hr : sig.r < P256.order) (hs : sig.s < P256.order) :
    decodeFixed? sig.encodeFixed = some sig := by
  have r : P256.ofOctets (P256.octets32 sig.r) = sig.r :=
    P256.ofOctets_octets32 (Nat.lt_trans hr P256.order_lt)
  have s : P256.ofOctets (P256.octets32 sig.s) = sig.s :=
    P256.ofOctets_octets32 (Nat.lt_trans hs P256.order_lt)
  rw [decodeFixed?, if_pos sig.length_encodeFixed, encodeFixed, List.take_left' (P256.length_octets32 _),
    List.drop_left' (P256.length_octets32 _), r, s]

theorem sign?_reduced {scalar nonce : Nat} {message : Bytes} {sig : Signature}
    (signed : Ecdsa.sign? scalar nonce message = some sig) :
    sig.r < P256.order ∧ sig.s < P256.order := by
  have positive : 0 < P256.order := by decide
  unfold Ecdsa.sign? at signed
  split at signed
  · cases signed
  · dsimp only at signed
    split at signed
    · cases signed
    · cases signed
      exact ⟨Nat.mod_lt _ positive, Nat.mod_lt _ positive⟩

end Signature

namespace Verifier

theorem decodingKey_eq (v : Verifier) : v.decodingKey = .ok v.publicKey := by
  simp only [decodingKey, coordinates, KeyCoordinates.point, Base64.decode_encode Base64.urlSafe_legible]
  rfl

theorem ofPoint_eq_ok {bs : Bytes} {v : Verifier} (accepted : ofPoint bs = .ok v) :
    P256.Point.decode? bs = some v.point := by
  unfold ofPoint at accepted
  split at accepted
  · cases accepted
  · next p decoded =>
    split at accepted
    · cases accepted
      exact decoded
    · cases accepted

end Verifier

namespace SigningKey

theorem point_reduced (k : SigningKey) : k.point.x < P256.fieldPrime ∧ k.point.y < P256.fieldPrime :=
  P256.Jacobian.toPoint?_reduced k.derived

/-- Whatever is registered with the public key of a signing key checks with that key's point. -/
theorem point_of_verifier (k : SigningKey) {algorithm : String} {v : Verifier}
    (accepted : Verifier.new algorithm k.publicKey = .ok v) : v.point = k.point := by
  have long : k.publicKey.length = Verifier.pointLength := P256.Point.length_encode k.point
  unfold Verifier.new at accepted
  split at accepted
  · cases accepted
  · split at accepted
    · cases accepted
    · next read =>
      cases accepted
      unfold Verifier.ofMaterial at read
      rw [if_pos long] at read
      have decoded := Verifier.ofPoint_eq_ok read
      have known := P256.Point.decode?_encode k.point_reduced.1 k.point_reduced.2
      exact Option.some.inj (decoded.symm.trans known)

end SigningKey
end PushGateway
