import ArduConfigurator.Lib.LittleEndian

/-! # The MAVFTP payload

`mavftp.ts`: the fields of an FTP request or reply, their place in the 251-byte payload of a
`FILE_TRANSFER_PROTOCOL` message, and the texts of the errors a reply can carry. -/
namespace ArduConfigurator.Mavftp
set_option autoImplicit false

/-! ## Constants -/

namespace MAV_FTP_OPCODE

def TERMINATE_SESSION : ℕ := 1
def RESET_SESSIONS : ℕ := 2
def LIST_DIRECTORY : ℕ := 3
def OPEN_FILE_RO : ℕ := 4
def READ_FILE : ℕ := 5
def CREATE_FILE : ℕ := 6
def WRITE_FILE : ℕ := 7
def REMOVE_FILE : ℕ := 8
def REMOVE_DIRECTORY : ℕ := 10
def BURST_READ_FILE : ℕ := 15
def ACK : ℕ := 128
def NAK : ℕ := 129

end MAV_FTP_OPCODE

namespace MAV_FTP_ERR

def NONE : ℕ := 0
def FAIL : ℕ := 1
def FAIL_ERRNO : ℕ := 2
def INVALID_DATA_SIZE : ℕ := 3
def INVALID_SESSION : ℕ := 4
def NO_SESSIONS_AVAILABLE : ℕ := 5
def EOF : ℕ := 6
def UNKNOWN_COMMAND : ℕ := 7
def FILE_EXISTS : ℕ := 8
def FILE_PROTECTED : ℕ := 9
def FILE_NOT_FOUND : ℕ := 10

end MAV_FTP_ERR

def MAVFTP_DATA_OFFSET : ℕ := 12
def MAVFTP_MAX_DATA_SIZE : ℕ := 239

/-! ## The payload and its bytes -/

structure MavftpPayload where
  seqNumber : ℕ
  session : ℕ
  opcode : ℕ
  size : ℕ
  reqOpcode : ℕ
  burstComplete : ℕ
  offset : ℕ
  data : Bytes
  deriving DecidableEq

/-- `bytes[i] ?? 0`. -/
def byteAt (bytes : Bytes) (i : ℕ) : ℕ := (bytes[i]?.getD 0).toNat

/-- Nothing stands for the `RangeError` of a `DataView` getter past the end of the bytes. -/
def decodeMavftpPayload (bytes : Bytes) : Option MavftpPayload := do
  let size := byteAt bytes 4
  let seqNumber ← readLE bytes 0 2
  let offset ← readLE bytes 8 4
  some {
    seqNumber
    session := byteAt bytes 2
    opcode := byteAt bytes 3
    size
    reqOpcode := byteAt bytes 5
    burstComplete := byteAt bytes 6
    offset
    data := slice bytes MAVFTP_DATA_OFFSET size }

/-- The data of a payload as far as `encodeMavftpPayload` copies it. -/
def MavftpPayload.wireData (payload : MavftpPayload) : Bytes :=
  payload.data.take (min payload.size MAVFTP_MAX_DATA_SIZE)

def encodeMavftpPayload (payload : MavftpPayload) : Bytes :=
  leBytes 2 payload.seqNumber ++
    [UInt8.ofNat payload.session, UInt8.ofNat payload.opcode, UInt8.ofNat payload.size,
      UInt8.ofNat payload.reqOpcode, UInt8.ofNat payload.burstComplete, 0] ++
    leBytes 4 payload.offset ++
    (payload.wireData ++ List.replicate (MAVFTP_MAX_DATA_SIZE - payload.wireData.length) 0)

/-- The fields are in the ranges of their wire types and `size` counts the data. -/
structure MavftpPayload.FitsWire (payload : MavftpPayload) : Prop where
  seqNumber : payload.seqNumber < 65536
  session : payload.session < 256
  opcode : payload.opcode < 256
  reqOpcode : payload.reqOpcode < 256
  burstComplete : payload.burstComplete < 256
  offset : payload.offset < 4294967296
  size : payload.size = payload.data.length
  data : payload.data.length ≤ MAVFTP_MAX_DATA_SIZE

theorem wireData_length_le (payload : MavftpPayload) :
    payload.wireData.length ≤ MAVFTP_MAX_DATA_SIZE := by
  rw [MavftpPayload.wireData, List.length_take]
  omega

theorem encodeMavftpPayload_length (payload : MavftpPayload) :
    (encodeMavftpPayload payload).length = 251 := by
  have h := wireData_length_le payload
  simp only [encodeMavftpPayload, List.length_append, leBytes_length, List.length_cons,
    List.length_nil, List.length_replicate, MAVFTP_MAX_DATA_SIZE] at h ⊢
  omega

theorem decode_encodeMavftpPayload {payload : MavftpPayload} (h : payload.FitsWire) :
    decodeMavftpPayload (encodeMavftpPayload payload) = some payload := by
  have hdata : payload.wireData = payload.data := by
    rw [MavftpPayload.wireData, List.take_of_length_le]
    have := h.size; have := h.data
    omega
  have hsize : payload.data.length < 256 := by
    have := h.data
    simp only [MAVFTP_MAX_DATA_SIZE] at this
    omega
  have hlen := encodeMavftpPayload_length payload
  have hseq : readLE (encodeMavftpPayload payload) 0 2 = some payload.seqNumber := by
    rw [readLE, if_pos (by omega)]
    have : slice (encodeMavftpPayload payload) 0 2 = leBytes 2 payload.seqNumber := by
      simp [slice, encodeMavftpPayload, leBytes]
    rw [this, ofLE_leBytes_of_lt (by have := h.seqNumber; omega)]
  have hoff : readLE (encodeMavftpPayload payload) 8 4 = some payload.offset := by
    rw [readLE, if_pos (by omega)]
    have : slice (encodeMavftpPayload payload) 8 4 = leBytes 4 payload.offset := by
      simp [slice, encodeMavftpPayload, leBytes]
    rw [this, ofLE_leBytes_of_lt (by have := h.offset; omega)]
  have hbyte : ∀ n : ℕ, n < 256 → (UInt8.ofNat n).toNat = n := fun n hn => by
    rw [UInt8.toNat_ofNat', Nat.mod_eq_of_lt hn]
  have htail : slice (encodeMavftpPayload payload) 12 payload.data.length = payload.data := by
    simp [slice, encodeMavftpPayload, leBytes, hdata]
  obtain ⟨seqNumber, session, opcode, size, reqOpcode, burstComplete, offset, data⟩ := payload
  obtain rfl : size = data.length := h.size
  simp only [decodeMavftpPayload, hseq, hoff, Option.bind_eq_bind, Option.bind_some,
    Option.some.injEq, MavftpPayload.mk.injEq, true_and]
  refine ⟨?_, ?_, ?_, ?_, ?_, ?_⟩
  · simp [byteAt, encodeMavftpPayload, leBytes, hbyte _ h.session]
  · simp [byteAt, encodeMavftpPayload, leBytes, hbyte _ h.opcode]
  · simp [byteAt, encodeMavftpPayload, leBytes, hbyte _ hsize]
  · simp [byteAt, encodeMavftpPayload, leBytes, hbyte _ h.reqOpcode]
  · simp [byteAt, encodeMavftpPayload, leBytes, hbyte _ h.burstComplete]
  · have : byteAt (encodeMavftpPayload ⟨seqNumber, session, opcode, data.length, reqOpcode,
        burstComplete, offset, data⟩) 4 = data.length := by
      simp [byteAt, encodeMavftpPayload, leBytes, hbyte _ hsize]
    rw [this]
    exact htail

/-! ## Errors -/

def FTP_ERRNO_TEXT : ℕ → Option String
  | 0 => some "the vehicle refused it without giving a reason"
  | 1 => some "not permitted"
  | 2 => some "no such file or folder"
  | 5 => some "input/output error on the card"
  | 9 => some "the file is not open"
  | 12 => some "the vehicle is out of memory"
  | 13 => some "permission denied"
  | 17 => some "it already exists"
  | 20 => some "not a folder"
  | 21 => some "it is a folder"
  | 22 => some "invalid request"
  | 23 => some "too many open files"
  | 28 => some "the card is full"
  | 30 => some "read-only"
  | 39 => some "the folder is not empty"
  | _ => none

def describeFtpErrno : Option ℕ → String
  | none => "The vehicle reported a failure"
  | some errno =>
      match FTP_ERRNO_TEXT errno with
      | some text => s!"{text.capitalize} (errno {errno})"
      | none => s!"The vehicle reported errno {errno}"

def formatMavftpNakError (errorCode : ℕ) (errno : Option ℕ) : String :=
  if errorCode = MAV_FTP_ERR.NONE then "No error"
  else if errorCode = MAV_FTP_ERR.FAIL then "Unknown FTP failure"
  else if errorCode = MAV_FTP_ERR.FAIL_ERRNO then describeFtpErrno errno
  else if errorCode = MAV_FTP_ERR.INVALID_DATA_SIZE then "Invalid FTP data size"
  else if errorCode = MAV_FTP_ERR.INVALID_SESSION then "Invalid FTP session"
  else if errorCode = MAV_FTP_ERR.NO_SESSIONS_AVAILABLE then "No FTP sessions available"
  else if errorCode = MAV_FTP_ERR.EOF then "End of file"
  else if errorCode = MAV_FTP_ERR.UNKNOWN_COMMAND then "Unknown FTP command"
  else if errorCode = MAV_FTP_ERR.FILE_EXISTS then "File already exists"
  else if errorCode = MAV_FTP_ERR.FILE_PROTECTED then "File is protected"
  else if errorCode = MAV_FTP_ERR.FILE_NOT_FOUND then "File not found"
  else s!"FTP error {errorCode}"

inductive MavftpError
  /-- `MavftpRequestError` -/
  | request (errorCode : ℕ) (errno : Option ℕ)
  /-- `MavftpAbortError` -/
  | aborted
  | noVehicle
  | responseTimedOut (ms : ℕ)
  | burstTimedOut (ms retries : ℕ)
  | burstGap (received declaredSize retries : ℕ)
  | tooLarge (declaredSize maxBytes : ℕ)
  | noEof (maxBytes : ℕ)
  /-- an error the transport or the caller of `cancelAll` supplied -/
  | other (text : String)
  deriving DecidableEq

def MavftpError.message : MavftpError → String
  | request errorCode errno => formatMavftpNakError errorCode errno
  | aborted => "MAVFTP burst download was aborted."
  | noVehicle => "MAVFTP requires an identified vehicle."
  | responseTimedOut ms => s!"Timed out waiting for MAVFTP response after {ms}ms."
  | burstTimedOut ms retries =>
      s!"No MAVFTP burst data arrived after {ms}ms and {retries} retries."
  | burstGap received declaredSize retries =>
      s!"MAVFTP burst left a gap at {received}/{declaredSize} bytes after {retries} retries."
  | tooLarge declaredSize maxBytes =>
      s!"MAVFTP file size {declaredSize} bytes exceeds the {maxBytes}-byte cap; refusing to allocate."
  | noEof maxBytes =>
      s!"MAVFTP read exceeded the {maxBytes}-byte cap (no EOF from the vehicle)."
  | other text => text

namespace MavftpPayload

/-- `payload.data[0] ?? 0`, the error code of a NAK. -/
def errorCode (payload : MavftpPayload) : ℕ := byteAt payload.data 0

/-- `payload.data[1]`, the errno of a NAK when it has one. -/
def errno (payload : MavftpPayload) : Option ℕ := (payload.data[1]?).map UInt8.toNat

def declaredSize (payload : MavftpPayload) : ℕ := (readLE payload.data 0 4).getD 0

/-- What `send` makes of the reply to a request. -/
def outcome (payload : MavftpPayload) : Except MavftpError MavftpPayload :=
  if payload.opcode = MAV_FTP_OPCODE.ACK then .ok payload
  else .error (.request payload.errorCode payload.errno)

end MavftpPayload
end ArduConfigurator.Mavftp
