import EarnProxy.Library.BigEndian
import Mathlib.Data.List.Forall2

/-!
# Frames of `app/earnapp_probe.py`

`encodeClientFrame` writes a frame and `readServerFrame` reads one off a stream of bytes. The bytes
have arrived, so no read waits for its timeout.
-/

namespace EarnProxy

open BigEndian

/-- What the two functions raise. -/
inductive FrameError where
  /-- `ValueError`. -/
  | value (message : String)
  /-- `OverflowError` of `int.to_bytes`. -/
  | overflow
  /-- `asyncio.IncompleteReadError`. -/
  | incompleteRead
  deriving DecidableEq, Repr

/-! ## The encoder -/

/-- `header`. -/
def frameHeader (first : UInt8) (length : Nat) : Except FrameError (List UInt8) :=
  if length < 126 then .ok [first, UInt8.ofNat (0x80 ||| length)]
  else if length ≤ 0xFFFF then .ok ([first, 0xFE] ++ toBytes 2 length)
  else if length < 256 ^ 8 then .ok ([first, 0xFF] ++ toBytes 8 length)
  else .error .overflow

/-- `encode_client_frame`, where `urandom` is what `os.urandom(4)` would return. -/
def encodeClientFrame (payload : List UInt8) (maskKey : Option (List UInt8)) (urandom : List UInt8)
    (opcode : Int := 1) : Except FrameError (List UInt8) :=
  if ¬(0 ≤ opcode ∧ opcode ≤ 0x0F) then
    .error (.value "WebSocket opcode must fit in four bits")
  else
    let key := if maskKey.getD [] = [] then urandom else maskKey.getD []
    if key.length ≠ 4 then .error (.value "WebSocket mask key must be four bytes")
    else
      let first := UInt8.ofNat (0x80 ||| (opcode.toNat &&& 0x0F))
      match frameHeader first payload.length with
      | .ok header => .ok (header ++ key ++ mask key payload)
      | .error e => .error e

/-! ## The reader -/

/-- `reader.readexactly(n)`, and what is left of the stream. -/
def readexactly (n : Nat) (stream : List UInt8) : Except FrameError (List UInt8 × List UInt8) :=
  if stream.length < n then .error .incompleteRead else .ok (stream.splitAt n)

/-- `length`, after the extension that the second byte asks for. -/
def readLength (second : UInt8) (stream : List UInt8) : Except FrameError (Nat × List UInt8) := do
  let length := (second &&& 0x7F).toNat
  if length = 126 then
    let (bytes, stream) ← readexactly 2 stream
    return (fromBytes bytes, stream)
  else if length = 127 then
    let (bytes, stream) ← readexactly 8 stream
    return (fromBytes bytes, stream)
  else return (length, stream)

structure ServerFrame where
  opcode : Nat
  final : Bool
  payload : List UInt8
  deriving DecidableEq, Repr

/-- `payload`, after the mask when there is one. -/
def readPayload (masked : Bool) (length : Nat) (stream : List UInt8) :
    Except FrameError (List UInt8 × List UInt8) := do
  let (key, stream) ← if masked then readexactly 4 stream else pure ([], stream)
  let (payload, stream) ← if length ≠ 0 then readexactly length stream else pure ([], stream)
  return (if key ≠ [] then mask key payload else payload, stream)

/-- `read_server_frame`, and what is left of the stream. -/
def readServerFrame (stream : List UInt8) : Except FrameError (ServerFrame × List UInt8) := do
  let (head, stream) ← readexactly 2 stream
  let final := head.getD 0 0 &&& 0x80 != 0
  let opcode := (head.getD 0 0 &&& 0x0F).toNat
  let masked := head.getD 1 0 &&& 0x80 != 0
  let (length, stream) ← readLength (head.getD 1 0) stream
  if length > 2000000 then throw (.value "WebSocket frame is too large")
  else
    let (payload, stream) ← readPayload masked length stream
    return (⟨opcode, final, payload⟩, stream)

/-- A caller that reads one frame after the other, with the number of bytes that each has taken. -/
def readServerFrames : Nat → List UInt8 →
    Except FrameError (List (ServerFrame × Nat) × List UInt8)
  | 0, stream => .ok ([], stream)
  | n + 1, stream => do
    let (frame, rest) ← readServerFrame stream
    let (frames, rest') ← readServerFrames n rest
    return ((frame, stream.length - rest.length) :: frames, rest')

/-! ## One frame -/

theorem readexactly_append {n : Nat} {bytes : List UInt8} (h : bytes.length = n)
    (rest : List UInt8) : readexactly n (bytes ++ rest) = .ok (bytes, rest) := by
  subst h
  simp [readexactly]

theorem readLength_of_lt {length : Nat} (h : length < 126) (rest : List UInt8) :
    readLength (UInt8.ofNat (0x80 ||| length)) rest = .ok (length, rest) := by
  have hbyte : ∀ l : Fin 126, (UInt8.ofNat (0x80 ||| l) &&& 0x7F).toNat = l := by decide
  have hlength := hbyte ⟨length, h⟩
  unfold readLength
  simp only [hlength]
  rw [if_neg (by omega), if_neg (by omega)]
  rfl

theorem readLength_two {length : Nat} (h : length ≤ 0xFFFF) (rest : List UInt8) :
    readLength 0xFE (toBytes 2 length ++ rest) = .ok (length, rest) := by
  have hread : readexactly 2 (toBytes 2 length ++ rest) = .ok (toBytes 2 length, rest) :=
    readexactly_append (length_toBytes 2 length) rest
  have hback : fromBytes (toBytes 2 length) = length := fromBytes_toBytes (by omega)
  unfold readLength
  rw [if_pos (by decide), hread]
  simp only [bind, Except.bind, pure, Except.pure, hback]

theorem readLength_eight {length : Nat} (h : length < 256 ^ 8) (rest : List UInt8) :
    readLength 0xFF (toBytes 8 length ++ rest) = .ok (length, rest) := by
  have hread : readexactly 8 (toBytes 8 length ++ rest) = .ok (toBytes 8 length, rest) :=
    readexactly_append (length_toBytes 8 length) rest
  have hback : fromBytes (toBytes 8 length) = length := fromBytes_toBytes h
  unfold readLength
  rw [if_neg (by decide), if_pos (by decide), hread]
  simp only [bind, Except.bind, pure, Except.pure, hback]

/-- The first two bytes of a header set the mask bit, and the reader has the length from what
follows them. -/
theorem frameHeader_eq_ok {first : UInt8} {length : Nat} {header : List UInt8}
    (h : frameHeader first length = .ok header) :
    ∃ second extension, header = first :: second :: extension ∧ (second &&& 0x80 != 0) = true ∧
      ∀ rest, readLength second (extension ++ rest) = .ok (length, rest) := by
  unfold frameHeader at h
  split at h
  next hshort =>
    have hmask : ∀ l : Fin 126, (UInt8.ofNat (0x80 ||| l) &&& 0x80 != 0) = true := by decide
    cases h
    exact ⟨_, [], rfl, hmask ⟨length, hshort⟩, readLength_of_lt hshort⟩
  next =>
    split at h
    next htwo =>
      cases h
      exact ⟨0xFE, toBytes 2 length, rfl, by decide, readLength_two htwo⟩
    next =>
      split at h
      next height =>
        cases h
        exact ⟨0xFF, toBytes 8 length, rfl, by decide, readLength_eight height⟩
      next => cases h

theorem frameHeader_ok_of_lt {length : Nat} (h : length < 256 ^ 8) (first : UInt8) :
    ∃ header, frameHeader first length = .ok header := by
  unfold frameHeader
  split
  · exact ⟨_, rfl⟩
  split
  · exact ⟨_, rfl⟩
  · exact ⟨_, rfl⟩

theorem readPayload_masked {key : List UInt8} (hkey : key.length = 4) (payload rest : List UInt8) :
    readPayload true payload.length (key ++ mask key payload ++ rest) = .ok (payload, rest) := by
  have hne : key ≠ [] := List.ne_nil_of_length_eq_add_one hkey
  have hread : readexactly 4 (key ++ (mask key payload ++ rest)) =
      .ok (key, mask key payload ++ rest) := readexactly_append hkey _
  unfold readPayload
  rw [if_pos rfl, List.append_assoc, hread]
  by_cases hlength : payload.length ≠ 0
  · have hpayload : readexactly payload.length (mask key payload ++ rest) =
        .ok (mask key payload, rest) := readexactly_append (length_mask key payload) rest
    simp only [bind, Except.bind, if_pos hlength, hpayload, if_pos hne, mask_mask, pure,
      Except.pure]
  · have hnil : payload = [] := List.length_eq_zero_iff.mp (not_not.mp hlength)
    subst hnil
    simp [bind, Except.bind, pure, Except.pure, mask]

/-- What a caller of `encode_client_frame` may ask for. -/
structure ClientFrame where
  opcode : Fin 16
  payload : List UInt8
  maskKey : List UInt8
  maskKey_length : maskKey.length = 4

namespace ClientFrame

variable (frame : ClientFrame) (urandom : List UInt8)

def encode : Except FrameError (List UInt8) :=
  encodeClientFrame frame.payload (some frame.maskKey) urandom frame.opcode.val

/-- What `read_server_frame` is to return. -/
def received : ServerFrame := ⟨frame.opcode.val, true, frame.payload⟩

def first : UInt8 := UInt8.ofNat (0x80 ||| (frame.opcode.val &&& 0x0F))

theorem first_final : (frame.first &&& 0x80 != 0) = true := by
  have h : ∀ opcode : Fin 16,
      (UInt8.ofNat (0x80 ||| (opcode.val &&& 0x0F)) &&& 0x80 != 0) = true := by decide
  exact h frame.opcode

theorem first_opcode : (frame.first &&& 0x0F).toNat = frame.opcode.val := by
  have h : ∀ opcode : Fin 16,
      (UInt8.ofNat (0x80 ||| (opcode.val &&& 0x0F)) &&& 0x0F).toNat = opcode.val := by decide
  exact h frame.opcode

theorem encode_eq : frame.encode urandom =
    (frameHeader frame.first frame.payload.length).map
      fun header => header ++ frame.maskKey ++ mask frame.maskKey frame.payload := by
  have hopcode : 0 ≤ (frame.opcode.val : Int) ∧ (frame.opcode.val : Int) ≤ 0x0F := by omega
  have hne : frame.maskKey ≠ [] := List.ne_nil_of_length_eq_add_one frame.maskKey_length
  unfold encode encodeClientFrame
  rw [if_neg (not_not.mpr hopcode)]
  simp only [Option.getD_some, if_neg hne, frame.maskKey_length, ne_eq, not_true_eq_false,
    if_false, Int.toNat_natCast]
  change (match frameHeader frame.first frame.payload.length with | .ok _ => _ | .error _ => _) = _
  cases frameHeader frame.first frame.payload.length <;> rfl

variable {frame urandom} {header : List UInt8}

theorem readServerFrame_of_le (h : frameHeader frame.first frame.payload.length = .ok header)
    (hlength : frame.payload.length ≤ 2000000) (rest : List UInt8) :
    readServerFrame (header ++ frame.maskKey ++ mask frame.maskKey frame.payload ++ rest) =
      .ok (frame.received, rest) := by
  obtain ⟨second, extension, rfl, hmasked, hread⟩ := frameHeader_eq_ok h
  have hlen : [frame.first, second].length = 2 := rfl
  have hhead := readexactly_append hlen
    (extension ++ (frame.maskKey ++ mask frame.maskKey frame.payload ++ rest))
  have hpayload := readPayload_masked frame.maskKey_length frame.payload rest
  have hstream : frame.first :: second :: extension ++ frame.maskKey ++
      mask frame.maskKey frame.payload ++ rest = [frame.first, second] ++
        (extension ++ (frame.maskKey ++ mask frame.maskKey frame.payload ++ rest)) := by
    simp only [List.append_assoc, List.cons_append, List.nil_append]
  unfold readServerFrame
  rw [hstream, hhead]
  simp only [bind, Except.bind, List.getD_cons_zero, List.getD_cons_succ, hread,
    if_neg (Nat.not_lt.mpr hlength), hmasked, hpayload, frame.first_final, frame.first_opcode]
  rfl

theorem readServerFrame_of_gt (h : frameHeader frame.first frame.payload.length = .ok header)
    (hlength : 2000000 < frame.payload.length) (rest : List UInt8) :
    readServerFrame (header ++ rest) = .error (.value "WebSocket frame is too large") := by
  obtain ⟨second, extension, rfl, -, hread⟩ := frameHeader_eq_ok h
  have hlen : [frame.first, second].length = 2 := rfl
  have hhead := readexactly_append hlen
    (extension ++ rest)
  unfold readServerFrame
  rw [show frame.first :: second :: extension ++ rest = [frame.first, second] ++
    (extension ++ rest) from rfl, hhead]
  simp only [bind, Except.bind, List.getD_cons_zero, List.getD_cons_succ, hread, if_pos hlength]
  rfl

end ClientFrame

/-! ## A stream of frames -/

theorem readServerFrames_cons {stream rest rest' : List UInt8} {frame : ServerFrame} {n : Nat}
    {frames : List (ServerFrame × Nat)} (hframe : readServerFrame stream = .ok (frame, rest))
    (hframes : readServerFrames n rest = .ok (frames, rest')) :
    readServerFrames (n + 1) stream =
      .ok ((frame, stream.length - rest.length) :: frames, rest') := by
  simp only [readServerFrames, hframe, hframes, bind, Except.bind, pure, Except.pure]

/-- The encodings of frames with short payloads are read back one by one. -/
theorem readServerFrames_encodings (urandom rest : List UInt8) (frames : List ClientFrame)
    (h : ∀ frame ∈ frames, frame.payload.length ≤ 2000000) :
    ∃ encodings, List.Forall₂ (fun frame encoding => frame.encode urandom = .ok encoding) frames
        encodings ∧
      readServerFrames frames.length (encodings.flatten ++ rest) = .ok
        (List.zipWith (fun frame encoding => (frame.received, encoding.length)) frames encodings,
          rest) := by
  induction frames with
  | nil => exact ⟨[], .nil, rfl⟩
  | cons frame frames ih =>
    obtain ⟨encodings, hencodings, hread⟩ :=
      ih fun frame hmem => h frame (List.mem_cons_of_mem _ hmem)
    have hlength := h frame List.mem_cons_self
    obtain ⟨header, hheader⟩ := frameHeader_ok_of_lt
      (show frame.payload.length < 256 ^ 8 by omega) frame.first
    have hframe := ClientFrame.readServerFrame_of_le hheader hlength (encodings.flatten ++ rest)
    have hencode := frame.encode_eq urandom
    rw [hheader] at hencode
    refine ⟨_ :: encodings, .cons hencode hencodings, ?_⟩
    rw [List.flatten_cons, List.append_assoc, List.length_cons, readServerFrames_cons hframe hread,
      List.length_append, Nat.add_sub_cancel]
    rfl

/-- Frames are read back as they were written, from a stream in which anything may follow them, and
the header of a longer payload is enough to refuse it. -/
theorem webSocket_frames_roundTrip (urandom : List UInt8) :
    (∀ (frames : List ClientFrame) (rest : List UInt8),
      (∀ frame ∈ frames, frame.payload.length ≤ 2000000) →
      ∃ encodings, List.Forall₂ (fun frame encoding => frame.encode urandom = .ok encoding) frames
          encodings ∧
        readServerFrames frames.length (encodings.flatten ++ rest) = .ok
          (List.zipWith (fun frame encoding => (frame.received, encoding.length)) frames encodings,
            rest)) ∧
    ∀ (frame : ClientFrame) (encoding : List UInt8), 2000000 < frame.payload.length →
      frame.encode urandom = .ok encoding →
      ∃ header, encoding = header ++ frame.maskKey ++ mask frame.maskKey frame.payload ∧
        ∀ rest, readServerFrame (header ++ rest) =
          .error (.value "WebSocket frame is too large") := by
  constructor
  · intro frames rest h
    exact readServerFrames_encodings urandom rest frames h
  · intro frame encoding hlength hencode
    rw [frame.encode_eq] at hencode
    cases hheader : frameHeader frame.first frame.payload.length with
    | error e => simp [hheader, Except.map] at hencode
    | ok header =>
      rw [hheader] at hencode
      cases hencode
      exact ⟨header, rfl, ClientFrame.readServerFrame_of_gt hheader hlength⟩

/-- A text frame and an empty pong after it. -/
def sampleFrames : List ClientFrame :=
  [⟨1, [104, 105], [1, 2, 3, 4], rfl⟩, ⟨10, [], [9, 8, 7, 6], rfl⟩]

theorem webSocket_frames_roundTrip_sample :
    ∃ encodings, List.Forall₂ (fun frame encoding => frame.encode [] = .ok encoding) sampleFrames
        encodings ∧
      readServerFrames 2 (encodings.flatten ++ [0]) = .ok
        (List.zipWith (fun frame encoding => (frame.received, encoding.length)) sampleFrames
          encodings, [0]) :=
  (webSocket_frames_roundTrip []).1 sampleFrames [0] (by decide)

end EarnProxy
