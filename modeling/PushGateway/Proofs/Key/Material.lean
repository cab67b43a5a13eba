import PushGateway.Key.Registry
import PushGateway.Proofs.Der.Element

namespace PushGateway

namespace P256

theorem ofOctets_inj {xs ys : Bytes} (lengths : xs.length = ys.length) (values : ofOctets xs = ofOctets ys) :
    xs = ys := by
  induction xs using List.reverseRecOn generalizing ys with
  | nil => exact (List.length_eq_zero_iff.mp lengths.symm).symm
  | append_singleton xs x ih =>
    obtain rfl | ⟨ys, y, rfl⟩ := List.eq_nil_or_concat ys
    · simp at lengths
    · rw [List.concat_eq_append] at lengths values ⊢
      rw [ofOctets_concat, ofOctets_concat] at values
      have octets := (⟨x.toNat_lt, y.toNat_lt⟩ : x.toNat < 2 ^ 8 ∧ y.toNat < 2 ^ 8)
      have last : x = y := UInt8.toNat_inj.mp (by omega)
      rw [ih (by simpa using lengths) (by omega), last]

theorem octets32_ofOctets {bs : Bytes} (long : bs.length = 32) : octets32 (ofOctets bs) = bs := by
  have bound : ofOctets bs < 2 ^ 256 := by
    have below := ofOctets_lt bs
    rw [long] at below
    exact below
  exact ofOctets_inj ((length_octets32 _).trans long.symm) (ofOctets_octets32 bound)

theorem Point.encode_of_decode? {bs : Bytes} {p : Point} (read : decode? bs = some p) : p.encode = bs := by
  unfold decode? at read
  split at read
  · split at read
    · next rest long =>
      cases read
      have first : (rest.take 32).length = 32 := by rw [List.length_take]; omega
      have second : (rest.drop 32).length = 32 := by rw [List.length_drop]; omega
      rw [encode, List.cons_append, octets32_ofOctets first, octets32_ofOctets second, List.take_append_drop]
    · cases read
  · cases read

end P256

namespace SubjectPublicKey

open Der

variable {bs rest : Bytes} {doc : SubjectPublicKey}

def IsP256 (doc : SubjectPublicKey) : Prop :=
  doc.algorithm.text = ecPublicKey ∧ doc.parameters.map (fun e => Oid.text ⟨e.content⟩) = some prime256v1

theorem point_eq_ok {p : Bytes} :
    point bs = .ok p ↔ ∃ doc rest, read? bs = some (doc, rest) ∧ doc.IsP256 ∧ doc.key = p := by
  unfold point IsP256
  cases read? bs with
  | none => simp
  | some read => grind

theorem read?_append (read : read? bs = some (doc, rest)) (more : Bytes) :
    read? (bs ++ more) = some (doc, rest ++ more) := by
  simp only [read?, Option.bind_eq_some_iff] at read ⊢
  obtain ⟨⟨outer, after⟩, opened, content⟩ := read
  obtain ⟨element, tagged⟩ := tagged?_eq_some.mp opened
  refine ⟨_, tagged?_eq_some.mpr ⟨element?_append element more, tagged⟩, ?_⟩
  obtain ⟨inner, identifier, algorithm, parts, bits, read, found⟩ := content
  refine ⟨inner, identifier, algorithm, parts, bits, read, ?_⟩
  obtain ⟨key, octets, same⟩ := Option.map_eq_some_iff.mp found
  cases same
  rw [octets]
  rfl

theorem length_bits? {e : Element} {key : Bytes} (read : e.bits? = some key) :
    key.length + 1 ≤ e.content.length := by
  unfold Element.bits? at read
  split at read
  · cases read
  · split at read
    · cases read
    · next content =>
      rw [content, List.length_cons]
      split at read
      · split at read <;> cases read
        exact Nat.le_add_left _ _
      · split at read <;> cases read
        exact Nat.le_refl _

theorem length_read? (read : read? bs = some (doc, rest)) : doc.key.length < bs.length := by
  simp only [read?, Option.bind_eq_some_iff] at read
  obtain ⟨⟨outer, after⟩, opened, ⟨identifier, content⟩, inner, algorithm, -, ⟨e, left⟩, bits, found⟩ := read
  obtain ⟨key, octets, same⟩ := Option.map_eq_some_iff.mp found
  cases same
  have document := length_element? (tagged?_eq_some.mp opened).1
  have first := length_element? (tagged?_eq_some.mp inner).1
  have second := length_element? bits
  have last := length_bits? octets
  dsimp only at document first second last ⊢
  omega

def ecPublicKeyOctets : Bytes := [0x2A, 0x86, 0x48, 0xCE, 0x3D, 0x02, 0x01]

def prime256v1Octets : Bytes := [0x2A, 0x86, 0x48, 0xCE, 0x3D, 0x03, 0x01, 0x07]

def document (key : Bytes) : Bytes :=
  Strict.encode Strict.sequenceTag
    (Strict.encode Strict.sequenceTag
        (Strict.encode Strict.objectIdentifierTag ecPublicKeyOctets ++
          Strict.encode Strict.objectIdentifierTag prime256v1Octets) ++
      Strict.encode Strict.bitStringTag (0 :: key))

theorem text_ecPublicKeyOctets : Oid.text ⟨ecPublicKeyOctets⟩ = ecPublicKey := by decide

theorem text_prime256v1Octets : Oid.text ⟨prime256v1Octets⟩ = prime256v1 := by decide

def documentHeader : Bytes :=
  [0x30, 0x59, 0x30, 0x13, 0x06, 0x07, 0x2A, 0x86, 0x48, 0xCE, 0x3D, 0x02, 0x01, 0x06, 0x08, 0x2A, 0x86, 0x48,
    0xCE, 0x3D, 0x03, 0x01, 0x07, 0x03, 0x42, 0x00]

theorem document_eq {p : Bytes} (long : p.length = 65) : document p = documentHeader ++ p := by
  simp [document, Strict.encode, Strict.encodeLength, ecPublicKeyOctets, prime256v1Octets, long, documentHeader,
    Strict.sequenceTag, Strict.objectIdentifierTag, Strict.bitStringTag]

theorem length_document {p : Bytes} (long : p.length = 65) : (document p).length = 91 := by
  rw [document_eq long, List.length_append, long]
  rfl

theorem bits?_of_octets {e : Element} {key : Bytes} (tag : e.tag = Tag.bitString) (plain : e.constructed = false)
    (content : e.content = 0 :: key) : e.bits? = some key := by
  unfold Element.bits?
  rw [if_neg (by simp [tag, plain]), content]
  dsimp only
  cases last : key.getLast? with
  | none => simp [List.getLast?_eq_none_iff.mp last]
  | some b => simp

theorem read?_document {p : Bytes} (long : p.length = 65) :
    ∃ doc, read? (document p) = some (doc, []) ∧ doc.IsP256 ∧ doc.key = p := by
  have identifier : (Strict.encode Strict.objectIdentifierTag ecPublicKeyOctets ++
      Strict.encode Strict.objectIdentifierTag prime256v1Octets).length = 19 := rfl
  have bits : (0 :: p).length = 66 := by rw [List.length_cons, long]
  have short : (Strict.encode Strict.sequenceTag
      (Strict.encode Strict.objectIdentifierTag ecPublicKeyOctets ++
        Strict.encode Strict.objectIdentifierTag prime256v1Octets) ++
      Strict.encode Strict.bitStringTag (0 :: p)).length < 0x80 := by
    rw [List.length_append, Strict.length_encode (by omega), Strict.length_encode (by omega)]
    omega
  have outer := element?_encode Strict.sequenceTag (by decide) short []
  have inner := element?_encode Strict.sequenceTag (by decide)
    (show (Strict.encode Strict.objectIdentifierTag ecPublicKeyOctets ++
      Strict.encode Strict.objectIdentifierTag prime256v1Octets).length < 0x80 by omega)
    (Strict.encode Strict.bitStringTag (0 :: p))
  have key := element?_encode Strict.bitStringTag (by decide) (show (0 :: p).length < 0x80 by omega) []
  rw [List.append_nil] at outer key
  refine ⟨⟨⟨ecPublicKeyOctets⟩, some ⟨0, false, 6, prime256v1Octets⟩, p⟩, ?_, ?_, rfl⟩
  · have algorithm : algorithm? (Strict.encode Strict.objectIdentifierTag ecPublicKeyOctets ++
        Strict.encode Strict.objectIdentifierTag prime256v1Octets) =
        some (⟨ecPublicKeyOctets⟩, some ⟨0, false, 6, prime256v1Octets⟩) := rfl
    simp only [read?, Option.bind_eq_some_iff]
    refine ⟨_, tagged?_eq_some.mpr ⟨outer, rfl⟩, _, tagged?_eq_some.mpr ⟨inner, rfl⟩, _, algorithm, _, key, ?_⟩
    rw [bits?_of_octets rfl rfl rfl]
    rfl
  · exact ⟨text_ecPublicKeyOctets, congrArg some text_prime256v1Octets⟩

end SubjectPublicKey

namespace Verifier

variable {m p : Bytes} {v : Verifier}

theorem length_publicKey (v : Verifier) : v.publicKey.length = pointLength := P256.Point.length_encode v.point

theorem ofPoint_eq_ok_iff : ofPoint p = .ok v ↔ p = v.publicKey := by
  constructor
  · intro accepted
    exact (P256.Point.encode_of_decode? (ofPoint_eq_ok accepted)).symm
  · rintro rfl
    have reduced := P256.Point.onCurve_reduced v.onCurve
    have read : P256.Point.decode? v.publicKey = some v.point := P256.Point.decode?_encode reduced.1 reduced.2
    unfold ofPoint
    rw [read]
    exact dif_pos v.onCurve

theorem ofMaterial_eq_ok : ofMaterial m = .ok v ↔ m = v.publicKey ∨ m.length ≠ pointLength ∧
    ∃ doc rest, SubjectPublicKey.read? m = some (doc, rest) ∧ doc.IsP256 ∧ doc.key = v.publicKey := by
  unfold ofMaterial
  by_cases long : m.length = pointLength
  · rw [if_pos long, ofPoint_eq_ok_iff]
    simp [long]
  · have other : m ≠ v.publicKey := by
      rintro rfl
      exact long v.length_publicKey
    rw [if_neg long, ← SubjectPublicKey.point_eq_ok]
    simp only [other, ne_eq, long, not_false_eq_true, true_and, false_or]
    cases SubjectPublicKey.point m with
    | error e => simp
    | ok point => simp [ofPoint_eq_ok_iff]

theorem new_eq_ok {algorithm : String} :
    new algorithm m = .ok v ↔ algorithm = tokenAlgorithm ∧ ofMaterial m = .ok v := by
  unfold new
  split
  · next other => simp [other]
  · next same =>
    rw [ne_eq, Decidable.not_not] at same
    cases ofMaterial m <;> simp [same]

theorem ofMaterial_document (long : p.length = pointLength) :
    ofMaterial (SubjectPublicKey.document p) = ofMaterial p := by
  obtain ⟨doc, read, curve, key⟩ := SubjectPublicKey.read?_document long
  have point := SubjectPublicKey.point_eq_ok.mpr ⟨doc, [], read, curve, key⟩
  have other : (SubjectPublicKey.document p).length ≠ pointLength := by
    rw [SubjectPublicKey.length_document long]
    decide
  rw [ofMaterial, if_neg other, point, ofMaterial, if_pos long]

theorem new_document (algorithm : String) (long : p.length = pointLength) :
    new algorithm (SubjectPublicKey.document p) = new algorithm p := by
  rw [new, ofMaterial_document long, new]

theorem new_publicKey (v : Verifier) : new tokenAlgorithm v.publicKey = .ok v :=
  new_eq_ok.mpr ⟨rfl, ofMaterial_eq_ok.mpr (.inl rfl)⟩

theorem length_of_document {doc : SubjectPublicKey} {rest : Bytes}
    (read : SubjectPublicKey.read? m = some (doc, rest)) (key : doc.key = v.publicKey) :
    pointLength < m.length := by
  have longer := SubjectPublicKey.length_read? read
  rwa [key, v.length_publicKey] at longer

theorem document_of_ok (accepted : new tokenAlgorithm m = .ok v) (other : m.length ≠ pointLength) :
    ∃ doc rest, SubjectPublicKey.read? m = some (doc, rest) ∧ doc.IsP256 ∧ doc.key = v.publicKey :=
  ((ofMaterial_eq_ok.mp (new_eq_ok.mp accepted).2).resolve_left fun h => other (h ▸ v.length_publicKey)).2

/-- What follows an accepted document is not looked at. -/
theorem new_append (accepted : new tokenAlgorithm m = .ok v) (other : m.length ≠ pointLength) (x : Bytes) :
    new tokenAlgorithm (m ++ x) = .ok v := by
  obtain ⟨doc, rest, read, curve, key⟩ := document_of_ok accepted other
  have longer := length_of_document read key
  refine new_eq_ok.mpr ⟨rfl, ofMaterial_eq_ok.mpr (.inr ⟨?_, ?_⟩)⟩
  · rw [List.length_append]
    omega
  · exact ⟨doc, rest ++ x, SubjectPublicKey.read?_append read x, curve, key⟩

theorem register_congr {q q' : KeyRegistration} (r : KeyRegistry)
    (same : new q.algorithm q.material = new q'.algorithm q'.material) (team : q.team = q'.team)
    (keyId : q.keyId = q'.keyId) (topics : q.topics = q'.topics) : r.register q = r.register q' := by
  rw [KeyRegistry.register, KeyRegistry.register, same, team, keyId, topics]

/-- A point and its document are one key: they give the same verifier, whose public key is the point, and the
same registration. What a verifier was made of does not matter after that: its public key gives it again. -/
theorem encodings_agree :
    (∀ p : Bytes, p.length = pointLength →
      (∀ algorithm, new algorithm (SubjectPublicKey.document p) = new algorithm p) ∧
      (∀ v, new tokenAlgorithm p = .ok v → v.publicKey = p) ∧
      ∀ (r : KeyRegistry) (q : KeyRegistration), r.register { q with material := SubjectPublicKey.document p } =
        r.register { q with material := p }) ∧
    ∀ m v, new tokenAlgorithm m = .ok v → new tokenAlgorithm v.publicKey = .ok v ∧
      ∀ (r : KeyRegistry) (q : KeyRegistration), q.algorithm = tokenAlgorithm →
        r.register { q with material := m } = r.register { q with material := v.publicKey } := by
  constructor
  · intro p long
    refine ⟨fun algorithm => new_document algorithm long, ?_, ?_⟩
    · intro v accepted
      have point := (new_eq_ok.mp accepted).2
      rw [ofMaterial, if_pos long, ofPoint_eq_ok_iff] at point
      exact point.symm
    · intro r q
      exact register_congr r (new_document q.algorithm long) rfl rfl rfl
  · intro m v accepted
    refine ⟨v.new_publicKey, ?_⟩
    intro r q es256
    refine register_congr r ?_ rfl rfl rfl
    dsimp only
    rw [es256, accepted, v.new_publicKey]

def ofGenerator : Verifier := ⟨P256.generator, by decide +kernel⟩

theorem encodings_agree_generator : P256.generator.encode.length = pointLength ∧
    ∃ v, new tokenAlgorithm P256.generator.encode = .ok v ∧
      new tokenAlgorithm (SubjectPublicKey.document P256.generator.encode) = .ok v ∧
      v.publicKey = P256.generator.encode := by
  have long : P256.generator.encode.length = pointLength := P256.Point.length_encode _
  obtain ⟨same, own, -⟩ := encodings_agree.1 _ long
  have accepted : new tokenAlgorithm P256.generator.encode = .ok ofGenerator :=
    (encodings_agree.2 _ _ ofGenerator.new_publicKey).1
  exact ⟨long, ofGenerator, accepted, (same _).trans accepted, own _ accepted⟩

/-- Accepted material is a point or a document and nothing else exactly when it has the length of a point, or the
length of a document and the octets that every document begins with. Other material is accepted for the document
at its head, and so it is with anything after it. -/
theorem in_full_iff (accepted : new tokenAlgorithm m = .ok v) :
    ((m = v.publicKey ∨ m = SubjectPublicKey.document v.publicKey) ↔
      m.length = pointLength ∨ m.length = 91 ∧ SubjectPublicKey.documentHeader <+: m) ∧
    (m.length ≠ pointLength →
      (∃ doc rest, SubjectPublicKey.read? m = some (doc, rest) ∧ doc.IsP256 ∧ doc.key = v.publicKey) ∧
      ∀ x, new tokenAlgorithm (m ++ x) = .ok v) := by
  have forms := ofMaterial_eq_ok.mp (new_eq_ok.mp accepted).2
  have point : m.length = pointLength → m = v.publicKey := fun long => forms.resolve_right fun h => h.1 long
  refine ⟨⟨?_, ?_⟩, fun other => ⟨document_of_ok accepted other, new_append accepted other⟩⟩
  · rintro (rfl | rfl)
    · exact .inl v.length_publicKey
    · refine .inr ⟨SubjectPublicKey.length_document v.length_publicKey, ?_⟩
      rw [SubjectPublicKey.document_eq v.length_publicKey]
      exact List.prefix_append _ _
  · rintro (long | ⟨length, p, rfl⟩)
    · exact .inl (point long)
    · have long : p.length = pointLength := by
        rw [List.length_append] at length
        exact Nat.add_left_cancel length
      rw [← SubjectPublicKey.document_eq long] at accepted ⊢
      rw [new_document tokenAlgorithm long, new_eq_ok, ofMaterial, if_pos long, ofPoint_eq_ok_iff] at accepted
      rw [accepted.2]
      exact .inr rfl

theorem in_full_iff_generator : ∃ v, new tokenAlgorithm (SubjectPublicKey.document P256.generator.encode) = .ok v ∧
    v.point = P256.generator ∧
    ∀ x, new tokenAlgorithm (SubjectPublicKey.document P256.generator.encode ++ x) = .ok v := by
  have long : P256.generator.encode.length = pointLength := P256.Point.length_encode _
  have accepted := (new_document tokenAlgorithm long).trans ofGenerator.new_publicKey
  refine ⟨ofGenerator, accepted, rfl, ((in_full_iff accepted).2 ?_).2⟩
  rw [SubjectPublicKey.length_document long]
  decide

/-- A document with an octet after it is accepted. -/
theorem accepted_beyond_document : ¬ ∀ m v, new tokenAlgorithm m = .ok v →
    (m = v.publicKey ∨ m = SubjectPublicKey.document v.publicKey) ∧
    (m.length ≠ pointLength → ∀ x, x ≠ [] → ∃ fault, new tokenAlgorithm (m ++ x) = .error (.invalidKey fault)) := by
  intro claim
  have long : P256.generator.encode.length = pointLength := P256.Point.length_encode _
  have accepted := (new_document tokenAlgorithm long).trans ofGenerator.new_publicKey
  have other : (SubjectPublicKey.document P256.generator.encode).length ≠ pointLength := by
    rw [SubjectPublicKey.length_document long]
    decide
  obtain ⟨fault, refused⟩ := (claim _ _ accepted).2 other [0] (List.cons_ne_nil _ _)
  rw [new_append accepted other] at refused
  cases refused

end Verifier
end PushGateway
