import MyTeams.Lib.FrameStream
import MyTeams.Server.Detail

/-!
# Frames on the wire

The frame format of `doc/RFC.md`, section 2, as an instance of `FrameStream.FrameCodec`: a two-byte
code, a four-byte payload size, the payload. Server and client have their own receive loops, which
differ in one point only: the server gives a connection up on a payload size above 65535, the client
takes any size that the header can hold. The limit is the parameter.

`makeMessage` is the encoder on both sides.
-/

namespace MyTeams

open ByteOrder FrameStream

/-- A frame: its code and its payload. -/
abbrev Frame := UInt16 × List UInt8

/-- The encoding of a frame. -/
def Frame.bytes (f : Frame) : List UInt8 := makeMessage f.1 f.2

/-- The code in the header at the front of a buffer. -/
def headerCode (buf : List UInt8) : UInt16 := ofBe16 (buf.take 2)

/-- The payload size in the header at the front of a buffer. -/
def headerPayloadSize (buf : List UInt8) : ℕ := (ofBe32 ((buf.drop 2).take 4)).toNat

/-- One look at the front of a buffer, for a receiver that refuses payload sizes above `limit`. -/
def scanHeader (limit : UInt32) (buf : List UInt8) : Scan UInt8 Frame :=
  if buf.length < headerSize then .more
  else if headerPayloadSize buf > limit.toNat then .refuse
  else if buf.length < headerSize + headerPayloadSize buf then .more
  else
    .frame (headerCode buf, (buf.drop headerSize).take (headerPayloadSize buf))
      (buf.drop (headerSize + headerPayloadSize buf))

/-! ### Headers -/

theorem length_makeMessage (code : UInt16) (payload : List UInt8) :
    (makeMessage code payload).length = headerSize + payload.length := by
  simp [makeMessage, headerSize]
  omega

/-- The header at the front of a buffer is not changed by what follows it. -/
theorem headerPayloadSize_append {buf : List UInt8} (h : headerSize ≤ buf.length)
    (more : List UInt8) : headerPayloadSize (buf ++ more) = headerPayloadSize buf := by
  rw [headerSize] at h
  rw [headerPayloadSize, headerPayloadSize, List.drop_append_of_le_length (by omega),
    List.take_append_of_le_length (by rw [List.length_drop]; omega)]

theorem headerCode_frame (f : Frame) (more : List UInt8) : headerCode (f.bytes ++ more) = f.1 := by
  rw [headerCode, Frame.bytes, makeMessage, List.append_assoc, List.append_assoc,
    List.take_left' (length_be16 _), ofBe16_be16]

theorem drop_headerSize (code : UInt16) (payload : List UInt8) :
    (makeMessage code payload).drop headerSize = payload :=
  List.drop_left' (by rw [List.length_append, length_be16, length_be32]; rfl)

/-- An encoding determines its frame. -/
theorem Frame.bytes_injective {f g : Frame} (h : f.bytes = g.bytes) : f = g := by
  have hcode := headerCode_frame f []
  rw [h, headerCode_frame] at hcode
  have hpayload : f.2 = g.2 := by
    calc f.2 = f.bytes.drop headerSize := (drop_headerSize _ _).symm
      _ = g.bytes.drop headerSize := by rw [h]
      _ = g.2 := drop_headerSize _ _
  exact Prod.ext hcode.symm hpayload

/-- The size in the header is the payload length in 32 bits. -/
theorem headerPayloadSize_bytes_append (f : Frame) (more : List UInt8) :
    headerPayloadSize (f.bytes ++ more) = f.2.length % 2 ^ 32 := by
  rw [headerPayloadSize, Frame.bytes, makeMessage, List.append_assoc, List.append_assoc,
    List.drop_left' (length_be16 _), List.take_left' (length_be32 _), ofBe32_be32,
    UInt32.toNat_ofNat']

theorem headerPayloadSize_bytes (f : Frame) : headerPayloadSize f.bytes = f.2.length % 2 ^ 32 := by
  rw [← headerPayloadSize_bytes_append f [], List.append_nil]

theorem headerPayloadSize_frame {f : Frame} (h : f.2.length < 2 ^ 32) (more : List UInt8) :
    headerPayloadSize (f.bytes ++ more) = f.2.length := by
  rw [headerPayloadSize_bytes_append, Nat.mod_eq_of_lt h]

/-- A buffer that holds a whole frame is that frame, encoded, and the rest. -/
theorem eq_frame_append {buf : List UInt8} (h : headerSize + headerPayloadSize buf ≤ buf.length) :
    buf = Frame.bytes (headerCode buf, (buf.drop headerSize).take (headerPayloadSize buf)) ++
      buf.drop (headerSize + headerPayloadSize buf) := by
  rw [headerSize] at *
  have hpayload : ((buf.drop 6).take (headerPayloadSize buf)).length = headerPayloadSize buf := by
    rw [List.length_take, List.length_drop]
    omega
  have hsize : be32 (UInt32.ofNat (headerPayloadSize buf)) = (buf.drop 2).take 4 := by
    rw [headerPayloadSize, UInt32.ofNat_toNat,
      be32_ofBe32 (by rw [List.length_take, List.length_drop]; omega)]
  rw [Frame.bytes, makeMessage, hpayload, hsize, headerCode,
    be16_ofBe16 (by rw [List.length_take]; omega), ← List.drop_drop, List.append_assoc,
    List.take_append_drop, List.append_assoc]
  conv_lhs => rw [← List.take_append_drop 2 buf, ← List.take_append_drop 4 (buf.drop 2)]
  rw [List.drop_drop]

/-! ### The codec -/

/-- **The frame format**, for a receiver that refuses payload sizes above `limit`. -/
def headerCodec (limit : UInt32) : FrameCodec UInt8 Frame where
  Valid f := f.2.length ≤ limit.toNat
  enc := Frame.bytes
  scan := scanHeader limit
  scan_nil := rfl
  scan_enc := by
    intro f more hf
    have hlt : f.2.length < 2 ^ 32 := hf.trans_lt limit.toNat_lt
    have hlen : (f.bytes ++ more).length = headerSize + f.2.length + more.length := by
      rw [List.length_append, Frame.bytes, length_makeMessage]
    have hdrop : (f.bytes ++ more).drop headerSize = f.2 ++ more := by
      rw [Frame.bytes, makeMessage, List.append_assoc, List.drop_left' (by simp [headerSize])]
    rw [scanHeader, hlen, headerPayloadSize_frame hlt, headerCode_frame, if_neg (by omega),
      if_neg (by omega), if_neg (by omega), ← List.drop_drop, hdrop, List.take_left, List.drop_left]
  enc_of_scan := by
    intro buf f rest h
    rw [scanHeader] at h
    split_ifs at h with h1 h2 h3
    obtain ⟨rfl, rfl⟩ := Scan.frame.inj h
    refine ⟨?_, eq_frame_append (by omega)⟩
    rw [List.length_take]
    omega
  refuse_append := by
    intro buf more h
    rw [scanHeader] at h
    split_ifs at h with h1 h2 h3
    rw [scanHeader, headerPayloadSize_append (by omega), if_neg (by rw [List.length_append]; omega),
      if_pos h2]

/-- The receive loop of the server refuses payloads above 65535 bytes. -/
def serverCodec : FrameCodec UInt8 Frame := headerCodec 65535

/-- The receive loop of the client takes every payload size. -/
def clientCodec : FrameCodec UInt8 Frame := headerCodec 0xFFFFFFFF

/-- When a buffer is refused. -/
theorem scan_eq_refuse_iff {limit : UInt32} {buf : List UInt8} :
    (headerCodec limit).scan buf = .refuse ↔
      headerSize ≤ buf.length ∧ limit.toNat < headerPayloadSize buf := by
  show scanHeader limit buf = .refuse ↔ _
  rw [scanHeader]
  split_ifs <;> simp <;> omega

/-- When a buffer has to wait for more bytes. -/
theorem scan_eq_more_iff {limit : UInt32} {buf : List UInt8} :
    (headerCodec limit).scan buf = .more ↔
      buf.length < headerSize ∨
        headerPayloadSize buf ≤ limit.toNat ∧ buf.length < headerSize + headerPayloadSize buf := by
  show scanHeader limit buf = .more ↔ _
  rw [scanHeader]
  split_ifs <;> simp <;> omega

theorem clientCodec_scan_ne_refuse (buf : List UInt8) : clientCodec.scan buf ≠ .refuse := by
  intro h
  obtain ⟨-, hlt⟩ := scan_eq_refuse_iff.1 h
  have : headerPayloadSize buf < 2 ^ 32 := UInt32.toNat_lt _
  have hmax : UInt32.toNat 0xFFFFFFFF = 2 ^ 32 - 1 := rfl
  omega

end MyTeams
