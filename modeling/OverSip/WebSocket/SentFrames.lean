import OverSip.WebSocket.WsFrames

/-!
# Frames that are sent

The encoders of `WsFraming` (`ws_framing.rb`), beside what RFC 6455 says of a frame that a server sends.
`frame << length` takes any number that is a byte: a control frame with 126 to 255 bytes of payload is sent,
and its length byte means something else to the client.
-/

namespace OverSip

/-! ## The encoders -/

/-- `frame << n`, for a number. A binary string has no character above 255: it raises. -/
def appendChar (frame : Bytes) (n : ℕ) : Option Bytes :=
  if n < 256 then some (frame ++ [UInt8.ofNat n]) else none

/-- The frame of `send_text_frame` and `send_binary_frame`. -/
def dataFrame (byte1 : UInt8) (message : Bytes) : Bytes :=
  let length := message.length
  if length ≤ 125 then byte1 :: UInt8.ofNat length :: message
  else if length < 65536 then byte1 :: 126 :: (packNumber 2 length ++ message)
  else byte1 :: 127 :: (packNumber 4 (length >>> 32) ++ packNumber 4 (length &&& 0xFFFFFFFF) ++ message)

/-- The frame of `send_ping_frame` and `send_pong_frame`. -/
def controlFrame (byte1 : UInt8) (data : Option Bytes) : Option Bytes :=
  (appendChar [byte1] (data.getD []).length).map fun frame => frame ++ data.getD []

/-- What is given to `send_data`. -/
def sendTextFrame (message : Bytes) : Bytes := dataFrame 129 message

def sendBinaryFrame (message : Bytes) : Bytes := dataFrame 130 message

def sendPingFrame (data : Option Bytes) : Option Bytes := controlFrame 137 data

def sendPongFrame (data : Option Bytes) : Option Bytes := controlFrame 138 data

/-- Without a status the reason is left out. -/
def sendCloseFrame (status : Option ℕ) (reason : Option Bytes) : Option Bytes :=
  match status with
  | some status =>
    (appendChar [136] (2 + (reason.getD []).length)).map fun frame =>
      frame ++ packNumber 2 status ++ reason.getD []
  | none => appendChar [136] 0

/-! ## Calls -/

/-- A call of one of the encoders. -/
inductive SentCall
  | text (message : Bytes)
  | binary (message : Bytes)
  | ping (data : Option Bytes)
  | pong (data : Option Bytes)
  | close (status : Option ℕ) (reason : Option Bytes)
deriving DecidableEq, Repr

namespace SentCall

/-- What the call sends; `none` when it raises. -/
def sent : SentCall → Option Bytes
  | text message => some (sendTextFrame message)
  | binary message => some (sendBinaryFrame message)
  | ping data => sendPingFrame data
  | pong data => sendPongFrame data
  | close status reason => sendCloseFrame status reason

def opcode : SentCall → SymOpcode
  | text _ => .text
  | binary _ => .binary
  | ping _ => .ping
  | pong _ => .pong
  | close _ _ => .close

/-- The bytes that the frame is to carry. -/
def payload : SentCall → Bytes
  | text message => message
  | binary message => message
  | ping data => data.getD []
  | pong data => data.getD []
  | close status reason =>
    match status with
    | some status => packNumber 2 status ++ reason.getD []
    | none => []

/-- A status that two bytes hold, and no reason without a status. -/
def StatusFits : SentCall → Prop
  | close (some status) _ => status < 65536
  | close none reason => reason.getD [] = []
  | _ => True

end SentCall

/-- `WsServer#send_sip_msg`, as long as the connection is open. -/
def sendSipMsg (validEncoding : Bytes → Bool) (msg : Bytes) : SentCall :=
  if validEncoding msg then .text msg else .binary msg

/-! ## RFC 6455 -/

def SymOpcode.isControl : SymOpcode → Bool
  | .close | .ping | .pong => true
  | _ => false

/-- A frame with FIN set. -/
structure ServerFrame where
  opcode : SymOpcode
  payload : Bytes
deriving DecidableEq, Repr

/-- The payload, which is all that follows its length. The length has to be written as short as it can. -/
def decodePayload (len7 : ℕ) (rest : Bytes) : Option Bytes :=
  if len7 ≤ 125 then
    if rest.length = len7 then some rest else none
  else if len7 = 126 then
    let n := unpackNumber (rest.take 2)
    if 2 ≤ rest.length ∧ 126 ≤ n ∧ (rest.drop 2).length = n then some (rest.drop 2) else none
  else
    let n := unpackNumber (rest.take 8)
    if 65536 ≤ n ∧ n < 2 ^ 63 ∧ (rest.drop 8).length = n then some (rest.drop 8) else none

/-- The reading of exactly one unmasked frame with FIN set. -/
def decodeFrame : Bytes → Option ServerFrame
  | byte1 :: byte2 :: rest =>
    if byte1 < 128 ∨ 128 ≤ byte2 then none
    else
      -- a number above 15 has an RSV bit
      (OPCODE (byte1.toNat - 128)).bind fun opcode =>
      (decodePayload byte2.toNat rest).bind fun payload =>
        if opcode.isControl = true ∧ 125 < payload.length then none else some { opcode, payload }
  | _ => none

namespace SentCall

variable (call : SentCall)

/-- The call can be put into a frame. -/
def Fits : Prop := (call.opcode.isControl = true → call.payload.length ≤ 125) ∧ call.StatusFits

/-- What is sent is one frame with the opcode and the payload, and what does not fit is not sent. -/
structure WellFormed : Prop where
  frame : ∀ bytes, call.sent = some bytes →
    decodeFrame bytes = some { opcode := call.opcode, payload := call.payload }
  refused : ¬call.Fits → call.sent = none

/-! ## Data frames -/

theorem packNumber_mod (k n : ℕ) : packNumber k (n % 256 ^ k) = packNumber k n := by
  induction k generalizing n with
  | zero => rfl
  | succ k ih =>
    have hdiv : n % 256 ^ (k + 1) / 256 = n / 256 % 256 ^ k := by
      rw [Nat.pow_succ', Nat.mod_mul_right_div_self]
    have hmod : UInt8.ofNat (n % 256 ^ (k + 1)) = UInt8.ofNat n := by
      apply UInt8.toNat_inj.mp
      rw [UInt8.toNat_ofNat', UInt8.toNat_ofNat', Nat.pow_succ']
      exact Nat.mod_mul_right_mod n 256 _
    rw [packNumber, packNumber, hdiv, ih, hmod]

/-- The two halves that `pack("NN")` writes are the eight bytes of the length. -/
theorem pack_halves (n : ℕ) : packNumber 4 (n >>> 32) ++ packNumber 4 (n &&& 0xFFFFFFFF) = packNumber 8 n := by
  have hand : n &&& 0xFFFFFFFF = n % 256 ^ 4 := Nat.and_two_pow_sub_one_eq_mod n 32
  have hshift : n >>> 32 = n / 256 ^ 4 := Nat.shiftRight_eq_div_pow n 32
  rw [hand, hshift, packNumber_mod]
  exact (packNumber_add 4 4 n).symm

/-- A frame of which the payload is read. -/
theorem decodeFrame_of_payload {byte1 byte2 : UInt8} {opcode : SymOpcode} {rest payload : Bytes}
    (hbyte : ¬byte1 < 128) (hopcode : OPCODE (byte1.toNat - 128) = some opcode) (hmask : byte2 < 128)
    (hpayload : decodePayload byte2.toNat rest = some payload)
    (hsize : opcode.isControl = true → payload.length ≤ 125) :
    decodeFrame (byte1 :: byte2 :: rest) = some { opcode, payload } := by
  show (if byte1 < 128 ∨ 128 ≤ byte2 then none else _) = _
  rw [if_neg (not_or.mpr ⟨hbyte, UInt8.not_le.mpr hmask⟩), hopcode, hpayload]
  show (if opcode.isControl = true ∧ 125 < payload.length then none else _) = _
  rw [if_neg fun h => Nat.not_lt.mpr (hsize h.1) h.2]

/-- A payload whose length is in the second byte. -/
theorem decodePayload_short {payload : Bytes} (h : payload.length ≤ 125) :
    UInt8.ofNat payload.length < 128 ∧
      decodePayload (UInt8.ofNat payload.length).toNat payload = some payload := by
  have hnat : (UInt8.ofNat payload.length).toNat = payload.length := by
    rw [UInt8.toNat_ofNat']
    omega
  constructor
  · rw [UInt8.lt_iff_toNat_lt, hnat]
    exact Nat.lt_of_le_of_lt h (by decide)
  · unfold decodePayload
    rw [hnat, if_pos h, if_pos rfl]

theorem decodePayload_twoBytes {payload : Bytes} (hlow : 126 ≤ payload.length) (h : payload.length < 65536) :
    decodePayload 126 (packNumber 2 payload.length ++ payload) = some payload := by
  have htake : (packNumber 2 payload.length ++ payload).take 2 = packNumber 2 payload.length :=
    List.take_left' (length_packNumber 2 _)
  have hdrop : (packNumber 2 payload.length ++ payload).drop 2 = payload :=
    List.drop_left' (length_packNumber 2 _)
  unfold decodePayload
  rw [if_neg (by decide), if_pos rfl]
  dsimp only
  rw [htake, hdrop, unpackNumber_packNumber (by omega), if_pos]
  refine ⟨?_, hlow, rfl⟩
  rw [List.length_append, length_packNumber]
  exact Nat.le_add_right 2 _

theorem decodePayload_eightBytes {payload : Bytes} (hlow : 65536 ≤ payload.length)
    (h : payload.length < 2 ^ 63) :
    decodePayload 127 (packNumber 8 payload.length ++ payload) = some payload := by
  have htake : (packNumber 8 payload.length ++ payload).take 8 = packNumber 8 payload.length :=
    List.take_left' (length_packNumber 8 _)
  have hdrop : (packNumber 8 payload.length ++ payload).drop 8 = payload :=
    List.drop_left' (length_packNumber 8 _)
  unfold decodePayload
  rw [if_neg (by decide), if_neg (by decide)]
  dsimp only
  rw [htake, hdrop, unpackNumber_packNumber (by omega), if_pos ⟨hlow, h, rfl⟩]

/-- The payload of a data frame is read, in whichever form its length is written. -/
theorem decodeFrame_dataFrame {byte1 : UInt8} {opcode : SymOpcode} (hbyte : ¬byte1 < 128)
    (hopcode : OPCODE (byte1.toNat - 128) = some opcode) (hdata : opcode.isControl = false) {message : Bytes}
    (hlen : message.length < 2 ^ 63) :
    decodeFrame (dataFrame byte1 message) = some { opcode, payload := message } := by
  have hsize : opcode.isControl = true → message.length ≤ 125 := by
    rw [hdata]
    exact nofun
  unfold dataFrame
  dsimp only
  by_cases hshort : message.length ≤ 125
  · rw [if_pos hshort]
    have hpayload := decodePayload_short hshort
    exact decodeFrame_of_payload hbyte hopcode hpayload.1 hpayload.2 hsize
  · rw [if_neg hshort]
    by_cases htwo : message.length < 65536
    · rw [if_pos htwo]
      exact decodeFrame_of_payload hbyte hopcode (by decide) (decodePayload_twoBytes (by omega) htwo) hsize
    · rw [if_neg htwo, pack_halves]
      exact decodeFrame_of_payload hbyte hopcode (by decide) (decodePayload_eightBytes (by omega) hlen) hsize

/-! ## Control frames -/

/-- No control frame with a payload of more than 125 bytes is read. -/
theorem length_of_decodeFrame {bytes : Bytes} {f : ServerFrame} (h : decodeFrame bytes = some f)
    (hcontrol : f.opcode.isControl = true) : f.payload.length ≤ 125 := by
  unfold decodeFrame at h
  split at h
  · split at h
    · cases h
    · obtain ⟨opcode, _, h⟩ := Option.bind_eq_some_iff.mp h
      obtain ⟨payload, _, h⟩ := Option.bind_eq_some_iff.mp h
      split at h
      · cases h
      · next hnot =>
        obtain rfl := Option.some.inj h
        exact Nat.not_lt.mp fun hlt => hnot ⟨hcontrol, hlt⟩
  · cases h

theorem controlFrame_eq (byte1 : UInt8) (data : Option Bytes) :
    controlFrame byte1 data =
      if (data.getD []).length < 256 then
        some (byte1 :: UInt8.ofNat (data.getD []).length :: data.getD [])
      else none := by
  unfold controlFrame appendChar
  split <;> rfl

theorem sendCloseFrame_some (status : ℕ) (reason : Option Bytes) :
    sendCloseFrame (some status) reason =
      if 2 + (reason.getD []).length < 256 then
        some (136 :: UInt8.ofNat (2 + (reason.getD []).length) :: (packNumber 2 status ++ reason.getD []))
      else none := by
  unfold sendCloseFrame appendChar
  dsimp only
  split <;> rfl

/-- What a control call sends: its number, the length as a byte, and the payload. -/
theorem sent_of_isControl (hcontrol : call.opcode.isControl = true) :
    call.sent =
      if call.payload.length < 256 then
        some (UInt8.ofNat (128 + call.opcode.number) :: UInt8.ofNat call.payload.length :: call.payload)
      else none := by
  cases call with
  | text message => cases hcontrol
  | binary message => cases hcontrol
  | ping data => exact controlFrame_eq 137 data
  | pong data => exact controlFrame_eq 138 data
  | close status reason =>
    cases status with
    | none => rfl
    | some status =>
      have hlen : (close (some status) reason).payload.length = 2 + (reason.getD []).length := by
        show (packNumber 2 status ++ reason.getD []).length = _
        rw [List.length_append, length_packNumber]
      rw [hlen]
      exact sendCloseFrame_some status reason

/-- A frame with the number, the length as a byte, and a short payload. -/
theorem decodeFrame_of_length_le (hlen : call.payload.length ≤ 125) :
    decodeFrame (UInt8.ofNat (128 + call.opcode.number) :: UInt8.ofNat call.payload.length :: call.payload) =
      some { opcode := call.opcode, payload := call.payload } := by
  have hpayload := decodePayload_short hlen
  have hfirst : ¬UInt8.ofNat (128 + call.opcode.number) < 128 ∧
      OPCODE ((UInt8.ofNat (128 + call.opcode.number)).toNat - 128) = some call.opcode := by
    cases call.opcode <;> decide
  exact decodeFrame_of_payload hfirst.1 hfirst.2 hpayload.1 hpayload.2 fun _ => hlen

/-! ## All calls -/

/-- A data frame is always well formed. A control frame is when its payload has at most 125 bytes, its status
two, and no reason is lost; from 256 bytes on the call raises. -/
theorem wellFormed_iff (hlen : call.payload.length < 2 ^ 32) :
    call.WellFormed ↔
      (call.opcode.isControl = true →
        call.payload.length ≤ 125 ∧ call.StatusFits ∨ 256 ≤ call.payload.length) := by
  by_cases hcontrol : call.opcode.isControl = true
  · have hsent := call.sent_of_isControl hcontrol
    constructor
    · rintro h -
      by_cases hlong : 256 ≤ call.payload.length
      · exact .inr hlong
      · rw [if_pos (Nat.not_le.mp hlong)] at hsent
        have hsize := length_of_decodeFrame (h.frame _ hsent) hcontrol
        refine .inl ⟨hsize, ?_⟩
        by_contra hstatus
        have hnone := h.refused fun hfits => hstatus hfits.2
        rw [hsent] at hnone
        cases hnone
    · intro h
      rcases h hcontrol with ⟨hsize, hstatus⟩ | hlong
      · rw [if_pos (Nat.lt_of_le_of_lt hsize (by decide))] at hsent
        constructor
        · intro bytes hbytes
          rw [hsent] at hbytes
          obtain rfl := Option.some.inj hbytes
          exact call.decodeFrame_of_length_le hsize
        · intro hnot
          exact absurd ⟨fun _ => hsize, hstatus⟩ hnot
      · rw [if_neg (Nat.not_lt.mpr hlong)] at hsent
        constructor
        · intro bytes hbytes
          rw [hsent] at hbytes
          cases hbytes
        · exact fun _ => hsent
  · have hlarge : call.payload.length < 2 ^ 63 := Nat.lt_trans hlen (by decide)
    refine iff_of_true ?_ fun h => absurd h hcontrol
    cases call with
    | text message =>
      constructor
      · intro bytes hbytes
        obtain rfl := Option.some.inj hbytes
        have hbyte : ¬(129 : UInt8) < 128 := by decide
        have hopcode : OPCODE ((129 : UInt8).toNat - 128) = some .text := by decide
        exact decodeFrame_dataFrame hbyte hopcode rfl hlarge
      · exact fun hnot => absurd ⟨nofun, trivial⟩ hnot
    | binary message =>
      constructor
      · intro bytes hbytes
        obtain rfl := Option.some.inj hbytes
        have hbyte : ¬(130 : UInt8) < 128 := by decide
        have hopcode : OPCODE ((130 : UInt8).toNat - 128) = some .binary := by decide
        exact decodeFrame_dataFrame hbyte hopcode rfl hlarge
      · exact fun hnot => absurd ⟨nofun, trivial⟩ hnot
    | ping data => exact absurd rfl hcontrol
    | pong data => exact absurd rfl hcontrol
    | close status reason => exact absurd rfl hcontrol

theorem wellFormed_empty_ping : (ping none).WellFormed :=
  (wellFormed_iff (ping none) (by decide)).mpr fun _ => .inl ⟨by decide, trivial⟩

/-- A close frame with a reason of 124 bytes. -/
def longClose : SentCall := close (some 1002) (some (List.replicate 124 120))

/-- Its length byte is 126, which announces two more bytes of length. -/
theorem longClose_not_wellFormed : ¬longClose.WellFormed := by
  intro h
  have hsent : longClose.sent = some (136 :: 126 :: 3 :: 234 :: List.replicate 124 120) := by decide +kernel
  have hread : decodeFrame (136 :: 126 :: 3 :: 234 :: List.replicate 124 120) = none := by decide +kernel
  rw [h.frame _ hsent] at hread
  cases hread

end SentCall

end OverSip
