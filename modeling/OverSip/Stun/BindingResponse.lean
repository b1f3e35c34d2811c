import OverSip.Stun.ParseRequest

/-!
# When a STUN client learns its address

Every answer is a Binding success response with the right lengths, cookie and transaction id, and a client of
RFC 3489 reads its address and port from it. A client with the magic cookie never reads its port: what it gets
differs from it by 0x3333.
-/

namespace OverSip

open LittleEndian

namespace Stun

/-! ## The parts of a response -/

theorem length_field {request : Bytes} {i len : ℕ} (h : i + len ≤ request.length) :
    (field request i len).length = len := by
  unfold field
  rw [List.length_take, List.length_drop]
  omega

/-- The bytes that stand behind `pre`. -/
theorem field_append {pre mid : Bytes} {i len : ℕ} (hi : pre.length = i) (hlen : mid.length = len)
    (post : Bytes) : field (pre ++ (mid ++ post)) i len = mid := by
  unfold field
  rw [← hi, ← hlen, List.drop_left, List.take_left]

/-- What a response consists of. -/
structure Parts where
  length : UInt8
  cookie : Bytes
  transactionId : Bytes
  attributeType : UInt8
  attributeLength : UInt8
  family : UInt8
  port : Bytes
  address : Bytes
  length_cookie : cookie.length = 4
  length_transactionId : transactionId.length = 12
  length_port : port.length = 2

namespace Parts

variable (p : Parts)

def bytes : Bytes :=
  [1, 1, 0, p.length] ++ p.cookie ++ p.transactionId ++
    [0x00, p.attributeType, 0, p.attributeLength, 0x00, p.family] ++ p.port ++ p.address

theorem length_bytes : p.bytes.length = 28 + p.address.length := by
  unfold bytes
  simp only [List.length_append, List.length_cons, List.length_nil, p.length_cookie, p.length_transactionId,
    p.length_port]

theorem field_zero : field p.bytes 0 2 = [1, 1] := rfl

theorem field_two : field p.bytes 2 2 = [0, p.length] := rfl

/-- Everything behind the transaction id. -/
def attr : Bytes :=
  [0x00, p.attributeType, 0, p.attributeLength, 0x00, p.family] ++ (p.port ++ p.address)

theorem bytes_eq : p.bytes = ([1, 1, 0, p.length] ++ p.cookie) ++ (p.transactionId ++ p.attr) := by
  unfold bytes attr
  simp only [List.append_assoc]

theorem field_four : field p.bytes 4 4 = p.cookie := by
  rw [bytes_eq, List.append_assoc]
  exact field_append rfl p.length_cookie _

theorem length_front : ([1, 1, 0, p.length] ++ p.cookie).length = 8 := by
  rw [List.length_append, p.length_cookie]
  rfl

theorem field_eight : field p.bytes 8 12 = p.transactionId := by
  rw [bytes_eq]
  exact field_append p.length_front p.length_transactionId _

theorem drop_twenty : p.bytes.drop 20 = p.attr := by
  have hlen : (([1, 1, 0, p.length] ++ p.cookie) ++ p.transactionId).length = 20 := by
    rw [List.length_append, p.length_front, p.length_transactionId]
  rw [bytes_eq, ← List.append_assoc, ← hlen, List.drop_left]

theorem field_of_attribute (i len : ℕ) : field p.bytes (20 + i) len = field p.attr i len := by
  unfold field
  rw [← List.drop_drop, drop_twenty]

theorem getD_of_attribute (i : ℕ) : p.bytes.getD (20 + i) 0 = p.attr.getD i 0 := by
  rw [← drop_twenty, List.getD_eq_getElem?_getD, List.getD_eq_getElem?_getD, List.getElem?_drop]

theorem field_port : field p.bytes 26 2 = p.port :=
  (p.field_of_attribute 6 2).trans (field_append rfl p.length_port _)

theorem drop_address : p.bytes.drop 28 = p.address := by
  have hdrop : p.attr.drop 8 = p.address := by
    show ([0x00, p.attributeType, 0, p.attributeLength, 0x00, p.family] ++ (p.port ++ p.address)).drop 8 = _
    rw [← List.append_assoc]
    apply List.drop_left'
    rw [List.length_append, p.length_port]
    rfl
  rw [← hdrop, ← drop_twenty, List.drop_drop]

/-- What a client reads of a response whose lengths and types are right. -/
theorem decodeResponse_bytes (rfc : Rfc) (htype : p.attributeType.toNat = rfc.attributeType)
    (hlength : p.length.toNat = 8 + p.address.length)
    (hattribute : p.attributeLength.toNat = 4 + p.address.length)
    (hfamily : p.family = 0x01 ∧ p.address.length = 4 ∨ p.family = 0x02 ∧ p.address.length = 16) :
    decodeResponse rfc p.bytes = some
      { cookie := p.cookie
        transactionId := p.transactionId
        family := p.family
        port := rfc.port (loadNetwork p.port)
        address := rfc.address p.transactionId p.address } := by
  have htwo (a b : UInt8) : loadNetwork [a, b] = b.toNat + 256 * a.toNat := by
    show b.toNat + 256 * (a.toNat + 256 * 0) = _
    rw [Nat.mul_zero, Nat.add_zero]
  have h20 : field p.bytes 20 2 = [0x00, p.attributeType] := p.field_of_attribute 0 2
  have h22 : field p.bytes 22 2 = [0, p.attributeLength] := p.field_of_attribute 2 2
  have h24 : p.bytes.getD 24 0 = 0 := p.getD_of_attribute 4
  have h25 : p.bytes.getD 25 0 = p.family := p.getD_of_attribute 5
  unfold decodeResponse
  rw [p.field_zero, p.field_two, p.field_four, p.field_eight, h20, h22, h24, h25, p.field_port, p.drop_address,
    p.length_bytes, htwo, htwo, htwo, htwo, htype, hlength, hattribute, if_pos]
  refine ⟨rfl, ?_, Nat.add_zero _, ?_, rfl, ?_⟩
  · show 8 + p.address.length + 256 * 0 + 20 = 28 + p.address.length
    omega
  · show 4 + p.address.length + 256 * 0 + 24 = 28 + p.address.length
    omega
  · exact hfamily.imp (fun h => ⟨h.1, by rw [h.2]⟩) fun h => ⟨h.1, by rw [h.2]⟩

end Parts

/-! ## Requests and their sources -/

/-- A Binding request, with whatever length and attributes. -/
structure BindingRequest where
  bytes : Bytes
  type_eq : bytes.getD 0 0 = 0 ∧ bytes.getD 1 0 = 0x1
  length_le : 20 ≤ bytes.length

/-- Where a request came from. -/
structure Source (inet : Inet) where
  ip : Bytes
  port : ℕ
  address : Address
  address_eq : inet.address ip = some address
  port_lt : port < 2 ^ 16

namespace BindingRequest

variable (r : BindingRequest)

/-- Which RFC the client is of. -/
def rfc : Rfc := if magicCookie r.bytes = cookie5389 then .rfc5389 else .rfc3489

/-- What the client is to learn. -/
def answer {inet : Inet} (s : Source inet) : BindingSuccess where
  cookie := magicCookie r.bytes
  transactionId := transactionId r.bytes
  family := s.address.family
  port := s.port
  address := s.address.bytes

/-- The response tells the client its address and port. -/
def Answered {inet : Inet} (s : Source inet) : Prop :=
  ∃ bs, parseRequest inet r.bytes s.ip s.port = .response bs ∧ decodeResponse r.rfc bs = some (r.answer s)

theorem length_magicCookie : (magicCookie r.bytes).length = 4 :=
  length_field (Nat.le_trans (by decide) r.length_le)

theorem length_transactionId : (transactionId r.bytes).length = 12 := length_field r.length_le

theorem hasMagicCookie_iff (request : Bytes) :
    hasMagicCookie request = true ↔ magicCookie request = cookie5389 := by
  unfold hasMagicCookie
  have hcookie : [33, 18, -92, 66] = cookie5389.map fun b => b.toInt8 := by decide
  rw [beq_iff_eq, hcookie]
  constructor
  · intro h
    exact List.map_injective_iff.mpr (fun a b hab => by simpa using congrArg Int8.toUInt8 hab) h
  · intro h
    rw [h]

theorem length_mappedPort (request : Bytes) (port : ℕ) : (mappedPort request port).length = 2 := by
  unfold mappedPort
  split <;> exact length_store _ _

theorem Address.length_bytes_cases (a : Address) :
    a.family = 0x01 ∧ a.bytes.length = 4 ∨ a.family = 0x02 ∧ a.bytes.length = 16 := by
  cases a with
  | ipv4 addr h => exact .inl ⟨rfl, h⟩
  | ipv6 addr h => exact .inr ⟨rfl, h⟩

theorem length_mappedAddress (a : Address) : (mappedAddress r.bytes a).length = a.bytes.length := by
  cases a with
  | ipv4 addr h =>
    unfold mappedAddress
    show (if hasMagicCookie r.bytes = true then _ else addr).length = addr.length
    split
    · rw [length_store, h]
    · rfl
  | ipv6 addr h =>
    unfold mappedAddress
    show (if hasMagicCookie r.bytes = true then _ else addr).length = addr.length
    split
    · rw [List.length_zipWith, List.length_append, r.length_magicCookie, r.length_transactionId, h]
      rfl
    · rfl

/-- The response by its parts. -/
def parts (a : Address) (port : ℕ) : Parts where
  length := UInt8.ofNat (4 + a.attributeLength)
  cookie := magicCookie r.bytes
  transactionId := transactionId r.bytes
  attributeType := if hasMagicCookie r.bytes then 0x20 else 0x01
  attributeLength := UInt8.ofNat a.attributeLength
  family := a.family
  port := mappedPort r.bytes port
  address := mappedAddress r.bytes a
  length_cookie := r.length_magicCookie
  length_transactionId := r.length_transactionId
  length_port := length_mappedPort _ _

theorem parseRequest_eq {inet : Inet} (s : Source inet) :
    parseRequest inet r.bytes s.ip s.port = .response (r.parts s.address s.port).bytes := by
  unfold parseRequest
  rw [if_neg (not_not.mpr r.type_eq.1), if_neg (Nat.not_lt.mpr r.length_le), if_neg (not_not.mpr r.type_eq.2),
    s.address_eq]
  rfl

/-- What the client reads, whatever the port and the address are written as. -/
theorem decodeResponse_parts (a : Address) (port : ℕ) :
    decodeResponse r.rfc (r.parts a port).bytes = some
      { cookie := magicCookie r.bytes
        transactionId := transactionId r.bytes
        family := a.family
        port := r.rfc.port (loadNetwork (mappedPort r.bytes port))
        address := r.rfc.address (transactionId r.bytes) (mappedAddress r.bytes a) } := by
  have hlen := r.length_mappedAddress a
  have hcases := Address.length_bytes_cases a
  have hsmall : a.bytes.length ≤ 16 := by
    rcases hcases with h | h <;> omega
  apply (r.parts a port).decodeResponse_bytes
  · show (if hasMagicCookie r.bytes = true then (0x20 : UInt8) else 0x01).toNat = r.rfc.attributeType
    unfold rfc
    by_cases h : magicCookie r.bytes = cookie5389
    · rw [if_pos ((hasMagicCookie_iff _).mpr h), if_pos h]
      rfl
    · rw [if_neg fun h' => h ((hasMagicCookie_iff _).mp h'), if_neg h]
      rfl
  · show (UInt8.ofNat (4 + (4 + a.bytes.length))).toNat = 8 + (mappedAddress r.bytes a).length
    rw [hlen, UInt8.toNat_ofNat']
    omega
  · show (UInt8.ofNat (4 + a.bytes.length)).toNat = 4 + (mappedAddress r.bytes a).length
    rw [hlen, UInt8.toNat_ofNat']
    omega
  · show a.family = 0x01 ∧ (mappedAddress r.bytes a).length = 4 ∨
      a.family = 0x02 ∧ (mappedAddress r.bytes a).length = 16
    rw [hlen]
    exact hcases

/-- A client with the magic cookie reads another port. -/
theorem port_of_magicCookie {port : ℕ} (hport : port < 2 ^ 16) (h : magicCookie r.bytes = cookie5389) :
    r.rfc.port (loadNetwork (mappedPort r.bytes port)) = port ^^^ 0x3333 := by
  have hload : load ((magicCookie r.bytes).take 2) = 0x1221 := by
    rw [h]
    rfl
  have hlt : port ^^^ 0x1221 < 65536 := Nat.xor_lt_two_pow hport (by decide)
  unfold rfc mappedPort htons
  rw [if_pos h, if_pos ((hasMagicCookie_iff _).mpr h), hload, Nat.mod_eq_of_lt hport,
    loadNetwork_store_toNetwork]
  show (port ^^^ 0x1221) % 65536 ^^^ 0x2112 = port ^^^ 0x3333
  rw [Nat.mod_eq_of_lt hlt, Nat.xor_assoc]
  rfl

theorem port_of_rfc3489 {port : ℕ} (hport : port < 2 ^ 16) (h : magicCookie r.bytes ≠ cookie5389) :
    r.rfc.port (loadNetwork (mappedPort r.bytes port)) = port := by
  unfold rfc mappedPort htons
  rw [if_neg h, if_neg fun h' => h ((hasMagicCookie_iff _).mp h'), Nat.mod_eq_of_lt hport,
    loadNetwork_store_toNetwork]
  exact Nat.mod_eq_of_lt hport

theorem address_of_rfc3489 (a : Address) (h : magicCookie r.bytes ≠ cookie5389) :
    r.rfc.address (transactionId r.bytes) (mappedAddress r.bytes a) = a.bytes := by
  have hnot : ¬hasMagicCookie r.bytes = true := fun h' => h ((hasMagicCookie_iff _).mp h')
  unfold rfc mappedAddress
  rw [if_neg h]
  cases a with
  | ipv4 addr _ => exact if_neg hnot
  | ipv6 addr _ => exact if_neg hnot

/-- A client learns its address and port exactly when it is one of RFC 3489. -/
theorem answered_iff {inet : Inet} (s : Source inet) :
    r.Answered s ↔ magicCookie r.bytes ≠ cookie5389 := by
  constructor
  · rintro ⟨bs, hparse, hdecode⟩ hcookie
    rw [r.parseRequest_eq s] at hparse
    obtain rfl := Result.response.inj hparse
    rw [r.decodeResponse_parts, r.port_of_magicCookie s.port_lt hcookie] at hdecode
    have hport : s.port ^^^ 0x3333 = s.port := congrArg BindingSuccess.port (Option.some.inj hdecode)
    have hzero : s.port ^^^ (s.port ^^^ 0x3333) = s.port ^^^ s.port := congrArg (s.port ^^^ ·) hport
    rw [← Nat.xor_assoc, Nat.xor_self, Nat.zero_xor] at hzero
    exact absurd hzero (by decide)
  · intro hcookie
    refine ⟨_, r.parseRequest_eq s, ?_⟩
    rw [r.decodeResponse_parts, r.port_of_rfc3489 s.port_lt hcookie, r.address_of_rfc3489 _ hcookie]
    rfl

/-! ## A client with the magic cookie -/

def sampleInet : Inet where
  pton4 ip := if ip = ascii "192.0.2.1" then .valid [192, 0, 2, 1] rfl else .invalid
  pton6 _ := .invalid

def sampleSource : Source sampleInet where
  ip := ascii "192.0.2.1"
  port := 32853
  address := .ipv4 [192, 0, 2, 1] rfl
  address_eq := rfl
  port_lt := by decide

/-- A Binding request without attributes. -/
def sampleBinding : BindingRequest where
  bytes := [0, 1, 0, 0] ++ cookie5389 ++ [1, 2, 3, 4, 5, 6, 7, 8, 9, 10, 11, 12]
  type_eq := ⟨rfl, rfl⟩
  length_le := by decide

/-- The client reads the port 45926, which is 32853 XORed with 0x3333. -/
theorem not_answered_magicCookie : ¬sampleBinding.Answered sampleSource := by
  rintro ⟨bs, hparse, hdecode⟩
  rw [sampleBinding.parseRequest_eq sampleSource] at hparse
  obtain rfl := Result.response.inj hparse
  have hport : (decodeResponse sampleBinding.rfc (sampleBinding.parts sampleSource.address 32853).bytes).map
      BindingSuccess.port = some 45926 := by decide
  have hread := congrArg (Option.map BindingSuccess.port) hdecode
  exact absurd (hport.symm.trans hread) (by decide)

end BindingRequest

end Stun

end OverSip
