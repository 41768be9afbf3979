import ConnectAlso.Net.Socket

/-!
# Relay protocol frames

The wire format of `crates/relay-proto/src/lib.rs`:
`[version:1][type:1][sender_id:16][target_id:16][payload_len:2 BE][payload:N]`.
The encoder refuses payloads above `maxPayload`; the decoder has no such bound of
its own, it only checks that the announced payload is there and ignores what
follows it.
-/

namespace ConnectAlso.RelayProto
open Misc

/-- `PeerId` (`relay-proto/src/lib.rs:18`). -/
abbrev PeerId := Uuid

/-- `PROTO_VERSION`. -/
def protoVersion : UInt8 := 0x01

/-- `MAX_PAYLOAD`. -/
def maxPayload : Nat := 2048

/-- `HEADER_LEN`. -/
def headerLen : Nat := 1 + 1 + 16 + 16 + 2

/-- `ProtoError`. -/
inductive ProtoError where
  | frameTooShort (length : Nat)
  | unknownVersion (version : UInt8)
  | unknownType (byte : UInt8)
  | payloadTooLarge (length : Nat)
  deriving DecidableEq, Repr

/-- `MsgType`. -/
inductive MsgType where
  | hello
  | data
  | keepalive
  deriving DecidableEq, Repr

namespace MsgType

/-- `msg_type as u8`. -/
def toByte : MsgType → UInt8
  | hello => 0x01
  | data => 0x02
  | keepalive => 0x03

/-- `MsgType::from_byte`. -/
def fromByte (b : UInt8) : Option MsgType :=
  if b = 0x01 then some hello
  else if b = 0x02 then some data
  else if b = 0x03 then some keepalive
  else none

@[simp] theorem fromByte_toByte (t : MsgType) : fromByte t.toByte = some t := by
  cases t <;> rfl

theorem toByte_of_fromByte {b : UInt8} {t : MsgType} (h : fromByte b = some t) : t.toByte = b := by
  unfold fromByte at h
  split at h
  · cases h
    exact Eq.symm ‹_›
  split at h
  · cases h
    exact Eq.symm ‹_›
  split at h
  · cases h
    exact Eq.symm ‹_›
  · cases h

end MsgType

/-- `RelayFrame`. -/
structure RelayFrame where
  senderId : PeerId
  targetId : PeerId
  msgType : MsgType
  payload : List UInt8
  deriving DecidableEq, Repr

namespace RelayFrame

/-- `RelayFrame::hello`. -/
def hello (senderId : PeerId) : RelayFrame :=
  { senderId, targetId := Uuid.nil, msgType := .hello, payload := [] }

/-- `RelayFrame::data`. -/
def data (senderId targetId : PeerId) (encryptedPayload : List UInt8) : RelayFrame :=
  { senderId, targetId, msgType := .data, payload := encryptedPayload }

/-- `RelayFrame::keepalive`. -/
def keepalive (senderId : PeerId) : RelayFrame :=
  { senderId, targetId := Uuid.nil, msgType := .keepalive, payload := [] }

/-- `RelayFrame::encode` (`relay-proto/src/lib.rs:143-156`). The length field is
    `payload.len() as u16` in big-endian form. -/
def encode (frame : RelayFrame) : Except ProtoError (List UInt8) :=
  if maxPayload < frame.payload.length then
    .error (.payloadTooLarge frame.payload.length)
  else
    .ok ([protoVersion, frame.msgType.toByte] ++ frame.senderId.bytes ++ frame.targetId.bytes ++
      beBytes 2 frame.payload.length ++ frame.payload)

/-- `RelayFrame::decode` (`relay-proto/src/lib.rs:165-194`). -/
def decode (data : List UInt8) : Except ProtoError RelayFrame :=
  if hlen : data.length < headerLen then .error (.frameTooShort data.length)
  else
    have hheader : 36 ≤ data.length := by simpa [headerLen] using hlen
    let version := data[0]
    if version ≠ protoVersion then .error (.unknownVersion version)
    else
      match MsgType.fromByte data[1] with
      | none => .error (.unknownType data[1])
      | some msgType =>
        let senderId : PeerId := ⟨slice data 2 18, slice_length (by omega)⟩
        let targetId : PeerId := ⟨slice data 18 34, slice_length (by omega)⟩
        let payloadLen := ofBeBytes (slice data 34 36)
        let payloadEnd := headerLen + payloadLen
        if data.length < payloadEnd then .error (.frameTooShort data.length)
        else .ok { senderId, targetId, msgType, payload := slice data headerLen payloadEnd }

/-! ## Frames on the wire -/

/-- The bytes of a frame. -/
def wireBytes (frame : RelayFrame) : List UInt8 :=
  [protoVersion, frame.msgType.toByte] ++ frame.senderId.bytes ++ frame.targetId.bytes ++
    beBytes 2 frame.payload.length ++ frame.payload

/-- A frame is a header and the payload. -/
theorem length_wireBytes (frame : RelayFrame) :
    frame.wireBytes.length = headerLen + frame.payload.length := by
  simp only [wireBytes, List.length_append, Uuid.length_bytes, beBytes_length, List.length_cons,
    List.length_nil, headerLen]

/-- The bytes of a frame whose length fits in the header decode to it, whatever follows
    them. -/
theorem decode_wireBytes {frame : RelayFrame} (h : frame.payload.length < 2 ^ 16)
    (suffix : List UInt8) : decode (frame.wireBytes ++ suffix) = .ok frame := by
  obtain ⟨⟨sender, hsender⟩, ⟨target, htarget⟩, msgType, payload⟩ := frame
  simp only [wireBytes] at h ⊢
  generalize hwhole : [protoVersion, msgType.toByte] ++ sender ++ target ++
    beBytes 2 payload.length ++ payload ++ suffix = whole
  have hlength : whole.length = 36 + payload.length + suffix.length := by
    rw [← hwhole]
    simp only [List.length_append, hsender, htarget, beBytes_length, List.length_cons,
      List.length_nil]
  -- each field is the slice between the lengths of what precedes it
  have hversion : whole[0]? = some protoVersion := by simp [← hwhole]
  have htype : whole[1]? = some msgType.toByte := by simp [← hwhole]
  have hsenderSlice : slice whole 2 18 = sender := by
    rw [← hwhole]
    simp only [List.append_assoc]
    rw [← List.append_assoc]
    exact slice_append (by simp) (by simp [hsender])
  have htargetSlice : slice whole 18 34 = target := by
    rw [← hwhole]
    simp only [List.append_assoc]
    rw [← List.append_assoc, ← List.append_assoc]
    exact slice_append (by simp [hsender]) (by simp [hsender, htarget])
  have hlenSlice : slice whole 34 36 = beBytes 2 payload.length := by
    rw [← hwhole, List.append_assoc (_ ++ beBytes 2 payload.length)]
    exact slice_append (by simp [hsender, htarget]) (by simp [hsender, htarget])
  have hpayloadSlice : slice whole 36 (36 + payload.length) = payload := by
    rw [← hwhole]
    exact slice_append (by simp [hsender, htarget]) (by simp [hsender, htarget])
  have hpayloadLen : ofBeBytes (slice whole 34 36) = payload.length := by
    rw [hlenSlice, ofBeBytes_beBytes]
    exact Nat.mod_eq_of_lt h
  have h0 : 0 < whole.length := by omega
  have h1 : 1 < whole.length := by omega
  rw [List.getElem?_eq_getElem h0, Option.some.injEq] at hversion
  rw [List.getElem?_eq_getElem h1, Option.some.injEq] at htype
  unfold decode
  rw [dif_neg (by rw [headerLen]; omega)]
  simp only [hversion, htype, MsgType.fromByte_toByte, hpayloadLen, hsenderSlice, htargetSlice,
    headerLen, hpayloadSlice, ne_eq, not_true_eq_false, if_false]
  rw [if_neg (by omega)]

/-- What decodes to a frame starts with the bytes of that frame, and its header announces
    the length of the payload. -/
theorem of_decode {data : List UInt8} {frame : RelayFrame} (h : decode data = .ok frame) :
    frame.payload.length = ofBeBytes (slice data 34 36) ∧ frame.wireBytes <+: data := by
  unfold decode at h
  split at h
  · cases h
  rename_i hlen
  have hheader : 36 ≤ data.length := by simpa [headerLen] using hlen
  dsimp only at h
  split at h
  · cases h
  rename_i hversion
  rw [not_not] at hversion
  split at h
  · cases h
  rename_i msgType htype
  split at h
  · cases h
  rename_i hend
  obtain rfl := Except.ok.inj h
  have hpayload : (slice data headerLen (headerLen + ofBeBytes (slice data 34 36))).length =
      ofBeBytes (slice data 34 36) := by
    rw [slice_length (by omega), Nat.add_sub_cancel_left]
  have hlenBytes : beBytes 2 (ofBeBytes (slice data 34 36)) = slice data 34 36 := by
    have hread := beBytes_ofBeBytes (slice data 34 36)
    rwa [slice_length hheader] at hread
  refine ⟨hpayload, data.drop (headerLen + ofBeBytes (slice data 34 36)), ?_⟩
  have hfront : data = [data[0], data[1]] ++ data.drop 2 := by
    match data, hheader with
    | _ :: _ :: _, _ => rfl
  rw [wireBytes, hpayload, hlenBytes, MsgType.toByte_of_fromByte htype, ← hversion]
  simp only [List.append_assoc]
  rw [slice_append_drop _ (Nat.le_add_right _ _), show headerLen = 36 from rfl,
    slice_append_drop _ (by omega), slice_append_drop _ (by omega), slice_append_drop _ (by omega),
    ← hfront]

/-- The decoder accepts exactly what starts with the bytes of a frame whose length fits in
    the header. -/
theorem decode_eq_ok_iff {data : List UInt8} {frame : RelayFrame} :
    decode data = .ok frame ↔ frame.payload.length < 2 ^ 16 ∧ frame.wireBytes <+: data := by
  refine ⟨?_, ?_⟩
  · intro h
    obtain ⟨hlength, hprefix⟩ := of_decode h
    refine ⟨?_, hprefix⟩
    have hlt := ofBeBytes_lt (slice data 34 36)
    have hheader : 36 ≤ data.length := by
      have hle := hprefix.length_le
      rw [length_wireBytes, headerLen] at hle
      omega
    rw [slice_length hheader] at hlt
    omega
  · rintro ⟨hlength, suffix, rfl⟩
    exact decode_wireBytes hlength suffix

/-! ## The encoder -/

/-- The encoder fails exactly on payloads above the limit. -/
theorem encode_eq_error_iff (frame : RelayFrame) :
    (∃ e, frame.encode = .error e) ↔ maxPayload < frame.payload.length := by
  unfold encode
  by_cases h : maxPayload < frame.payload.length
  · simp [h]
  · simp [h]

theorem encode_of_le {frame : RelayFrame} (h : frame.payload.length ≤ maxPayload) :
    frame.encode = .ok frame.wireBytes := by
  rw [encode, if_neg (by omega), wireBytes]

theorem encode_eq_ok_iff {frame : RelayFrame} {bytes : List UInt8} :
    frame.encode = .ok bytes ↔ frame.payload.length ≤ maxPayload ∧ frame.wireBytes = bytes := by
  refine ⟨?_, ?_⟩
  · intro h
    have hle : frame.payload.length ≤ maxPayload := by
      by_contra hlarge
      obtain ⟨e, he⟩ := (encode_eq_error_iff frame).mpr (by omega)
      rw [he] at h
      cases h
    rw [encode_of_le hle] at h
    exact ⟨hle, Except.ok.inj h⟩
  · rintro ⟨hle, rfl⟩
    exact encode_of_le hle

/-- The bytes of a HELLO. -/
def helloBytes (senderId : PeerId) : List UInt8 :=
  [protoVersion, MsgType.hello.toByte] ++ senderId.bytes ++ Uuid.nil.bytes ++ beBytes 2 0 ++ []

theorem encode_hello (senderId : PeerId) : (hello senderId).encode = .ok (helloBytes senderId) :=
  encode_of_le (Nat.zero_le _)

/-- Decoding an encoded frame gives the frame, whatever bytes follow it. -/
theorem decode_encode {frame : RelayFrame} {bytes : List UInt8} (h : frame.encode = .ok bytes)
    (suffix : List UInt8) : decode (bytes ++ suffix) = .ok frame := by
  obtain ⟨hle, rfl⟩ := encode_eq_ok_iff.mp h
  exact decode_wireBytes (Nat.lt_of_le_of_lt hle (by decide)) suffix

/-- No encoded frame is longer than a full one. -/
theorem length_of_encode_le {frame : RelayFrame} {bytes : List UInt8}
    (h : frame.encode = .ok bytes) : bytes.length ≤ headerLen + maxPayload := by
  obtain ⟨hle, rfl⟩ := encode_eq_ok_iff.mp h
  rw [length_wireBytes]
  omega

/-! ## Round trips -/

/-- The encoder fails exactly on payloads above the limit; what it gives otherwise decodes
    to the frame, whatever follows it, and no proper prefix of it decodes. -/
theorem decode_undoes_encode (frame : RelayFrame) :
    ((∃ e, frame.encode = .error e) ↔ maxPayload < frame.payload.length) ∧
    ∀ bytes, frame.encode = .ok bytes →
      (∀ suffix, decode (bytes ++ suffix) = .ok frame) ∧
      ∀ short, short <+: bytes → short ≠ bytes → ∃ e, decode short = .error e := by
  refine ⟨encode_eq_error_iff frame, ?_⟩
  intro bytes hencode
  refine ⟨decode_encode hencode, ?_⟩
  intro short hshort hne
  cases hdecode : decode short with
  | error e => exact ⟨e, rfl⟩
  | ok other =>
      -- the longer bytes would decode to the same frame, which is as long as they are
      obtain ⟨hlength, hprefix⟩ := decode_eq_ok_iff.mp hdecode
      have hsame : decode bytes = .ok other :=
        decode_eq_ok_iff.mpr ⟨hlength, hprefix.trans hshort⟩
      have hself : decode bytes = .ok frame := by
        simpa using decode_encode hencode []
      obtain rfl : other = frame := Except.ok.inj (hsame.symm.trans hself)
      rw [(encode_eq_ok_iff.mp hencode).2] at hprefix
      exact absurd (hshort.eq_of_length_le hprefix.length_le) hne

/-- Encoding a decoded frame gives back the bytes it was decoded from exactly when the
    header announces no more than the limit. -/
theorem encode_undoes_decode_iff {data : List UInt8} {frame : RelayFrame}
    (h : decode data = .ok frame) :
    frame.encode = .ok (data.take (headerLen + frame.payload.length)) ↔
      ofBeBytes (slice data 34 36) ≤ maxPayload := by
  obtain ⟨hlength, hprefix⟩ := of_decode h
  have htake : frame.wireBytes = data.take (headerLen + frame.payload.length) := by
    rw [← length_wireBytes]
    exact List.prefix_iff_eq_take.mp hprefix
  rw [encode_eq_ok_iff, ← hlength]
  exact and_iff_left htake

/-- A DATA frame with three bytes of payload. -/
def shortData : RelayFrame := data (Uuid.fromU128 1) (Uuid.fromU128 2) [10, 20, 30]

/-- It comes back as it was received, without the bytes behind it. -/
theorem encode_decode_shortData :
    shortData.encode =
      .ok ((shortData.wireBytes ++ [8, 9]).take (headerLen + shortData.payload.length)) :=
  (@encode_undoes_decode_iff (shortData.wireBytes ++ [8, 9]) shortData (by decide +kernel)).mpr
    (by decide +kernel)

/-- A frame with one payload byte more than the limit. -/
def overlong : RelayFrame := data Uuid.nil Uuid.nil (List.replicate (maxPayload + 1) 0)

/-- It is decoded, but not encoded again. -/
theorem overlong_decodes_only :
    decode overlong.wireBytes = .ok overlong ∧
      overlong.encode ≠
        .ok (overlong.wireBytes.take (headerLen + overlong.payload.length)) := by
  have hlength : overlong.payload.length = maxPayload + 1 := List.length_replicate
  refine ⟨?_, ?_⟩
  · have hdecode := @decode_wireBytes overlong (by rw [hlength]; decide) []
    rwa [List.append_nil] at hdecode
  · intro hencode
    have hle := (encode_eq_ok_iff.mp hencode).1
    rw [hlength] at hle
    omega

end RelayFrame

end ConnectAlso.RelayProto
