import OverSip.WebSocket.WsSegmentation
import Mathlib.Algebra.Group.Nat.Defs

/-!
# Frames on the wire

`WsFrame.bytes` is a masked frame of a client. The length may be written in any of the three forms that
hold it. `clean_frame` takes the loop through the bytes of a frame that passes `check_frame`, to the
state where its payload is processed.
-/

namespace OverSip

/-! ## Numbers -/

/-- The big-endian bytes of a number. -/
def packNumber : Nat → Nat → Bytes
  | 0, _ => []
  | k + 1, n => packNumber k (n / 256) ++ [UInt8.ofNat n]

theorem length_packNumber (k n : Nat) : (packNumber k n).length = k := by
  induction k generalizing n with
  | zero => rfl
  | succ k ih => rw [packNumber, List.length_append, ih, List.length_singleton]

theorem unpackNumber_packNumber {k n : Nat} (h : n < 256 ^ k) : unpackNumber (packNumber k n) = n := by
  induction k generalizing n with
  | zero =>
    rw [Nat.pow_zero, Nat.lt_one_iff] at h
    rw [h]
    rfl
  | succ k ih =>
    have hdiv : n / 256 < 256 ^ k := by
      rw [Nat.pow_succ] at h
      exact Nat.div_lt_of_lt_mul (Nat.mul_comm _ _ ▸ h)
    have hlast : unpackNumber (packNumber k (n / 256) ++ [UInt8.ofNat n]) =
        256 * unpackNumber (packNumber k (n / 256)) + (UInt8.ofNat n).toNat := by
      unfold unpackNumber
      rw [List.foldl_append]
      rfl
    rw [packNumber, hlast, ih hdiv]
    exact Nat.div_add_mod n 256

/-- The first of the bytes are those of the quotient. -/
theorem packNumber_add (j k n : Nat) : packNumber (j + k) n = packNumber j (n / 256 ^ k) ++ packNumber k n := by
  induction k generalizing n with
  | zero => rw [Nat.pow_zero, Nat.div_one, packNumber, List.append_nil, Nat.add_zero]
  | succ k ih =>
    rw [Nat.add_succ, packNumber, ih, packNumber, List.append_assoc, Nat.div_div_eq_div_mul,
      Nat.pow_succ, Nat.mul_comm]

/-! ## Masking -/

theorem getElem_unmask {payload mask : Bytes} {i : Nat} (h : i < (unmask payload mask).length)
    (h' : i < payload.length) : (unmask payload mask)[i] = payload[i] ^^^ mask.getD (i % 4) 0 := by
  simp [unmask]

theorem unmask_unmask (payload mask : Bytes) : unmask (unmask payload mask) mask = payload := by
  apply List.ext_getElem
  · rw [WsConnection.length_unmask, WsConnection.length_unmask]
  · intro i h₁ h₂
    have h₃ : i < (unmask payload mask).length := by
      rw [WsConnection.length_unmask]
      exact h₂
    rw [getElem_unmask h₁ h₃, getElem_unmask h₃ h₂, UInt8.xor_assoc, UInt8.xor_self, UInt8.xor_zero]

/-! ## Frames -/

/-- How the length of a payload is written. -/
inductive LengthForm
  | short
  | twoBytes
  | eightBytes
deriving DecidableEq, Repr

namespace LengthForm

/-- The lengths below this can be written so. -/
def limit : LengthForm → Nat
  | short => 126
  | twoBytes => 256 ^ 2
  | eightBytes => 256 ^ 8

/-- The seven bits behind the mask bit. -/
def code (form : LengthForm) (n : Nat) : Nat :=
  match form with
  | short => n
  | twoBytes => 126
  | eightBytes => 127

/-- The bytes that follow. -/
def bytes (form : LengthForm) (n : Nat) : Bytes :=
  match form with
  | short => []
  | twoBytes => packNumber 2 n
  | eightBytes => packNumber 8 n

end LengthForm

/-- A frame of a client. -/
structure WsFrame where
  fin : Bool
  opcode : SymOpcode
  lengthForm : LengthForm
  maskingKey : Bytes
  payload : Bytes
  key_length : maskingKey.length = 4
  fits : payload.length < lengthForm.limit

namespace WsFrame

variable (f : WsFrame)

def byte1 : UInt8 := UInt8.ofNat ((if f.fin then 128 else 0) + f.opcode.number)

def byte2 : UInt8 := UInt8.ofNat (128 + f.lengthForm.code f.payload.length)

/-- The frame on the wire, its payload masked. -/
def bytes : Bytes :=
  f.byte1 :: f.byte2 :: (f.lengthForm.bytes f.payload.length ++ (f.maskingKey ++ unmask f.payload f.maskingKey))

theorem code_lt : f.lengthForm.code f.payload.length < 128 := by
  have hfits := f.fits
  cases hform : f.lengthForm with
  | short =>
    rw [hform] at hfits
    exact Nat.lt_trans hfits (by decide)
  | twoBytes => exact show 126 < 128 by decide
  | eightBytes => exact show 127 < 128 by decide

/-- The bits of the first byte. -/
theorem byte1_spec : (f.byte1 &&& 0b10000000 == 0b10000000) = f.fin ∧
    (f.byte1 &&& 0b01000000 == 0b01000000) = false ∧ (f.byte1 &&& 0b00100000 == 0b00100000) = false ∧
    (f.byte1 &&& 0b00010000 == 0b00010000) = false ∧
    (f.byte1 &&& 0b00001111).toNat = f.opcode.number := by
  unfold byte1
  cases f.fin <;> cases f.opcode <;> decide

/-- The bits of the second byte. -/
theorem byte2_spec : f.byte2 &&& 0b10000000 = 0b10000000 ∧
    (f.byte2 &&& 0b01111111).toNat = f.lengthForm.code f.payload.length := by
  have hall : ∀ n < 128, UInt8.ofNat (128 + n) &&& 0b10000000 = 0b10000000 ∧
      (UInt8.ofNat (128 + n) &&& 0b01111111).toNat = n := by decide
  exact hall _ f.code_lt

/-- What `check_frame` asks for, when a message of type `type` is being received. -/
structure Checked (cfg : WsConfig) (type : Option SymOpcode) (f : WsFrame) : Prop where
  control : f.opcode = .close ∨ f.opcode = .ping ∨ f.opcode = .pong →
    f.fin = true ∧ f.payload.length ≤ 125
  first : f.opcode = .text ∨ f.opcode = .binary → type = none
  more : f.opcode = .continuation → type ≠ none
  size : f.payload.length ≤ cfg.maxWsFrameSize

end WsFrame

namespace WsFraming

/-- The framing when the header and the length of a frame have been read. -/
def header (g : WsFraming) (f : WsFrame) : WsFraming :=
  { g with
    state := .maskingKey, fin := f.fin, opcode := f.opcode.number, symOpcode := f.opcode
    payloadLength := f.payload.length, payload := none }

/-- The framing when the frame has been read. -/
def received (g : WsFraming) (f : WsFrame) : WsFraming :=
  { g.header f with
    state := .processFrame, maskingKey := f.maskingKey
    payload := if f.payload = [] then none else some f.payload }

theorem payloadBytes_received (g : WsFraming) (f : WsFrame) :
    (g.received f).payloadBytes = f.payload := by
  show (if f.payload = [] then none else some f.payload).getD [] = f.payload
  split_ifs with hp
  · exact hp.symm
  · rfl

end WsFraming

/-! ## A frame is read -/

namespace WsConnection

variable {α : Type} {cfg : WsConfig} {app : SipApp α} {c c' : WsConnection α} {f : WsFrame}
  {rest : Bytes} {o : List WsOut}

theorem clean_turn (c₁ : WsConnection α) (h : c.turn cfg app = { conn := c₁, out := [], again := true })
    (hstate : c₁.state = .websocket) (hclean : (framer cfg app).Clean c₁ o c') :
    (framer cfg app).Clean c o c' := by
  have hturn : (framer cfg app).turn c = ((c.turn cfg app).conn, (c.turn cfg app).out, true) := by
    apply framer_turn_of_again
    · rw [h]
    · rw [h]
      exact hstate
  rw [h] at hturn
  exact .more hturn hclean

theorem read_append {n : Nat} (bytes : Bytes) (hbuffer : c.buffer = bytes ++ rest) (hn : bytes.length = n)
    (k : WsConnection α → Bytes → WsTurn α) : c.read n k = k { c with buffer := rest } bytes := by
  subst hn
  have hle : bytes.length ≤ c.buffer.length := by
    rw [hbuffer, List.length_append]
    exact Nat.le_add_right _ _
  rw [read_of_le hle, hbuffer, List.drop_left, List.take_left]

theorem readHeader_frame (c : WsConnection α) (f : WsFrame) :
    c.readHeader [f.byte1, f.byte2] =
      match f.lengthForm with
      | .short => { conn := { c with framing := c.framing.header f }, out := [], again := true }
      | .twoBytes =>
        { conn := { c with framing := { c.framing.header f with
            payloadLength := c.framing.payloadLength, state := .payloadLength2Bytes } }
          out := [], again := true }
      | .eightBytes =>
        { conn := { c with framing := { c.framing.header f with
            payloadLength := c.framing.payloadLength, state := .payloadLength8Bytes } }
          out := [], again := true } := by
  obtain ⟨hfin, hrsv1, hrsv2, hrsv3, hopcode⟩ := f.byte1_spec
  obtain ⟨hmask, hcode⟩ := f.byte2_spec
  have hfits := f.fits
  unfold readHeader
  simp only [List.getD_cons_zero, List.getD_cons_succ, hfin, hrsv1, hrsv2, hrsv3, hopcode,
    OPCODE_number, hcode]
  rw [Bool.or_false, Bool.or_false, if_neg Bool.false_ne_true, if_neg (not_not.mpr hmask)]
  cases hform : f.lengthForm with
  | short =>
    rw [hform] at hfits
    have hlt : f.payload.length < 126 := hfits
    have hne₁ : LengthForm.short.code f.payload.length ≠ 127 := Nat.ne_of_lt (Nat.lt_succ_of_lt hlt)
    have hne₂ : LengthForm.short.code f.payload.length ≠ 126 := Nat.ne_of_lt hlt
    rw [if_neg hne₁, if_neg hne₂]
    rfl
  | twoBytes => rfl
  | eightBytes => rfl

/-- The header and the length. -/
theorem clean_length (hstate : c.state = .websocket) (hinit : c.framing.state = .init)
    (hbuffer : c.buffer = f.byte1 :: f.byte2 :: (f.lengthForm.bytes f.payload.length ++ rest))
    (hsize : f.payload.length ≤ cfg.maxWsFrameSize)
    (hclean : (framer cfg app).Clean { c with buffer := rest, framing := c.framing.header f } o c') :
    (framer cfg app).Clean c o c' := by
  have hlt : f.payload.length < 1048576 := Nat.lt_of_le_of_lt hsize cfg.frame_minor_than
  have hturn : c.turn cfg app =
      readHeader { c with buffer := f.lengthForm.bytes f.payload.length ++ rest } [f.byte1, f.byte2] := by
    unfold turn
    rw [hinit]
    exact read_append [f.byte1, f.byte2] hbuffer rfl _
  rw [readHeader_frame] at hturn
  cases hform : f.lengthForm with
  | short =>
    rw [hform] at hturn
    exact clean_turn _ hturn hstate hclean
  | twoBytes =>
    have hfits := f.fits
    rw [hform] at hturn hfits
    refine clean_turn _ hturn hstate (clean_turn { c with
      buffer := rest, framing := c.framing.header f } ?_ hstate hclean)
    show read _ 2 readPayloadLength2Bytes = _
    rw [read_append (packNumber 2 f.payload.length) rfl (length_packNumber 2 _)]
    unfold readPayloadLength2Bytes
    rw [unpackNumber_packNumber hfits]
    rfl
  | eightBytes =>
    rw [hform] at hturn
    refine clean_turn _ hturn hstate (clean_turn { c with
      buffer := rest, framing := c.framing.header f } ?_ hstate hclean)
    show read _ 8 readPayloadLength8Bytes = _
    rw [read_append (packNumber 8 f.payload.length) rfl (length_packNumber 8 _)]
    -- the length is below 4 GB, and the first four bytes are zero
    have hpack : packNumber 8 f.payload.length = packNumber 4 0 ++ packNumber 4 f.payload.length := by
      rw [packNumber_add 4 4, Nat.div_eq_of_lt (by omega)]
    unfold readPayloadLength8Bytes
    rw [hpack, List.take_left' (length_packNumber 4 0), List.drop_left' (length_packNumber 4 0),
      unpackNumber_packNumber (by decide), unpackNumber_packNumber (by omega)]
    rfl

/-- A frame that passes the checks. -/
theorem checkFrame_frame (h : f.Checked cfg c.framing.msgSymOpcode)
    (hopcode : c.framing.opcode = f.opcode.number) (hfin : c.framing.fin = f.fin)
    (hlength : c.framing.payloadLength = f.payload.length) : c.checkFrame cfg = c.goOn .payloadData := by
  have hcontrol : c.framing.isControlFrame = true → f.fin = true ∧ f.payload.length ≤ 125 := by
    intro hc
    have hlt : 2 < f.opcode.number := by
      rw [← hopcode]
      exact of_decide_eq_true hc
    apply h.control
    cases hop : f.opcode with
    | close => exact .inl rfl
    | ping => exact .inr (.inl rfl)
    | pong => exact .inr (.inr rfl)
    | continuation | text | binary =>
      rw [hop] at hlt
      exact absurd hlt (by decide)
  unfold checkFrame
  rw [if_neg, if_neg, if_neg, if_neg, if_neg]
  · rw [hlength]
    exact Nat.not_lt_of_le h.size
  · rw [Bool.and_eq_true, Option.isSome_iff_ne_none]
    rintro ⟨hsome, htext⟩
    refine hsome (h.first ?_)
    unfold WsFraming.isTextOrBinaryFrame at htext
    rw [hopcode] at htext
    cases hop : f.opcode with
    | text => exact .inl rfl
    | binary => exact .inr rfl
    | _ =>
      rw [hop] at htext
      exact absurd htext (by decide)
  · rw [Bool.and_eq_true, Option.isNone_iff_eq_none]
    rintro ⟨hmore, hnone⟩
    refine h.more ?_ hnone
    unfold WsFraming.isContinuationFrame at hmore
    rw [hopcode] at hmore
    cases hop : f.opcode with
    | continuation => rfl
    | _ =>
      rw [hop] at hmore
      exact absurd hmore (by decide)
  · rw [Bool.and_eq_true, Bool.not_eq_true']
    rintro ⟨hc, hnot⟩
    rw [hfin, (hcontrol hc).1] at hnot
    cases hnot
  · rw [Bool.and_eq_true, decide_eq_true_eq, hlength]
    exact fun hbig => Nat.not_lt_of_le (hcontrol hbig.1).2 hbig.2

/-- **A frame.** The loop reads the bytes of a frame and comes to its payload. -/
theorem clean_frame (hstate : c.state = .websocket) (hinit : c.framing.state = .init)
    (hbuffer : c.buffer = f.bytes ++ rest) (hchecked : f.Checked cfg c.framing.msgSymOpcode)
    (hclean : (framer cfg app).Clean { c with buffer := rest, framing := c.framing.received f } o c') :
    (framer cfg app).Clean c o c' := by
  have hbytes : c.buffer = f.byte1 :: f.byte2 :: (f.lengthForm.bytes f.payload.length ++
      (f.maskingKey ++ (unmask f.payload f.maskingKey ++ rest))) := by
    rw [hbuffer, WsFrame.bytes, List.cons_append, List.cons_append, List.append_assoc, List.append_assoc]
  refine clean_length hstate hinit hbytes hchecked.size ?_
  refine clean_turn { c with
    buffer := unmask f.payload f.maskingKey ++ rest
    framing := { c.framing.header f with state := .checkFrame, maskingKey := f.maskingKey } } ?_ hstate ?_
  · show read _ 4 readMaskingKey = _
    rw [read_append f.maskingKey rfl f.key_length]
    rfl
  refine clean_turn { c with
    buffer := unmask f.payload f.maskingKey ++ rest
    framing := { c.framing.header f with state := .payloadData, maskingKey := f.maskingKey } } ?_ hstate ?_
  · exact checkFrame_frame hchecked rfl rfl rfl
  refine clean_turn { c with buffer := rest, framing := c.framing.received f } ?_ hstate hclean
  show read _ f.payload.length readPayloadData = _
  rw [read_append (unmask f.payload f.maskingKey) rfl (length_unmask _ _)]
  have hpayload : (if f.payload.length = 0 then none else
      some (unmask (unmask f.payload f.maskingKey) f.maskingKey)) =
      if f.payload = [] then none else some f.payload := by
    rw [unmask_unmask]
    simp only [List.length_eq_zero_iff]
  exact congrArg (fun payload : Option Bytes => WsTurn.mk { c with
    buffer := rest
    framing := { c.framing.received f with payload } } [] true) hpayload

end WsConnection

end OverSip
