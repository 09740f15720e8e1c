import ArduConfigurator.Lib.LittleEndian
import ArduConfigurator.Transport.Types
import Mathlib.Data.List.Infix

/-! # The transport over WebUSB

`WebUsbSerialTransport` of `web-usb-serial-transport.ts` and the serial ports of `web-usb-cdc.ts`. A
device is known by a number. What an asynchronous function of the transport waits for is its stage;
`disconnects` holds the calls of `disconnect()` that have not resolved and `loops` the read loops,
with nothing where one has returned. `claims` are the interfaces that the devices have given to the
transport, and `ended` records that since the last attempt began a `connect()` has rejected or a
`disconnect()` has resolved. -/
namespace ArduConfigurator.Transport.WebUsb
set_option autoImplicit false

/-! ## Serial ports -/

def USB_CLASS_CDC : ℕ := 0x02
def USB_CLASS_CDC_DATA : ℕ := 0x0A

inductive Direction
  | input
  | output
  deriving DecidableEq

inductive TransferType
  | bulk
  | interrupt
  | isochronous
  deriving DecidableEq

structure UsbEndpoint where
  endpointNumber : ℕ
  direction : Direction
  type : TransferType

structure UsbAlternateInterface where
  alternateSetting : ℕ
  interfaceClass : ℕ
  endpoints : List UsbEndpoint

structure UsbInterface where
  interfaceNumber : ℕ
  alternate : UsbAlternateInterface
  alternates : Option (List UsbAlternateInterface)

structure UsbConfiguration where
  configurationValue : ℕ
  interfaces : List UsbInterface

structure CdcSerialPort where
  interfaceNumber : ℕ
  alternateSetting : ℕ
  inEndpoint : ℕ
  outEndpoint : ℕ
  controlInterfaceNumber : Option ℕ

def isBulk (direction : Direction) (endpoint : UsbEndpoint) : Bool :=
  endpoint.direction = direction ∧ endpoint.type = .bulk

/-- The ports found so far and `lastCommInterface`, after one more alternate. -/
def addAlternate (usbInterface : UsbInterface) (found : List CdcSerialPort × Option ℕ)
    (alternate : UsbAlternateInterface) : List CdcSerialPort × Option ℕ :=
  if alternate.interfaceClass = USB_CLASS_CDC then (found.1, some usbInterface.interfaceNumber)
  else if alternate.interfaceClass = USB_CLASS_CDC_DATA then
    match alternate.endpoints.find? (isBulk .input), alternate.endpoints.find? (isBulk .output) with
    | some inEndpoint, some outEndpoint =>
      (found.1 ++ [⟨usbInterface.interfaceNumber, alternate.alternateSetting,
        inEndpoint.endpointNumber, outEndpoint.endpointNumber, found.2⟩], none)
    | _, _ => found
  else found

def addInterface (found : List CdcSerialPort × Option ℕ) (usbInterface : UsbInterface) :
    List CdcSerialPort × Option ℕ :=
  (usbInterface.alternates.getD [usbInterface.alternate]).foldl (addAlternate usbInterface) found

def findCdcSerialPorts (configuration : UsbConfiguration) : List CdcSerialPort :=
  (configuration.interfaces.foldl addInterface ([], none)).1

/-- The place of the port that `selectCdcSerialPort` picks. -/
def selectedPlace (ports : List CdcSerialPort) (index : ℤ) : ℕ :=
  if 0 ≤ index ∧ index < ports.length then index.toNat else 0

def selectCdcSerialPort (ports : List CdcSerialPort) (index : ℤ) : Option CdcSerialPort :=
  ports[selectedPlace ports index]?

def candidates (ports : List CdcSerialPort) (index : ℤ) : List CdcSerialPort :=
  (selectCdcSerialPort ports index).toList ++ ports.eraseIdx (selectedPlace ports index)

/-! ## Failures -/

/-- `/a|b|…/i.test(message)`. -/
def mentions (words : List String) (message : String) : Bool :=
  words.any fun word => decide (word.toList <:+: message.toLower.toList)

def describeUsbError (message : String) : String :=
  if mentions ["busy", "in use", "claimed"] message then
    message ++ " — another driver or tab already owns this interface. Close other GCS software, " ++
      "or unplug and replug the board."
  else if mentions ["access denied", "permission", "not allowed"] message then
    message ++ " — USB permission was refused for this device."
  else if mentions ["no device selected", "device unavailable", "disconnected"] message then
    message ++ " — the board was unplugged or reset."
  else message

/-! ## The state -/

structure UsbDevice where
  opened : Bool
  configuration : Option UsbConfiguration
  configurations : List UsbConfiguration
  selectsAlternates : Bool

/-- What `doConnect` waits for, with its variables. -/
inductive Stage
  | opening
  | configuring (configuration : UsbConfiguration)
  | claimingControl (candidate : CdcSerialPort) (control : ℕ) (rest : List CdcSerialPort)
  | claimingData (candidate : CdcSerialPort) (claimedComm : Option ℕ) (rest : List CdcSerialPort)
  | releasingControl (candidate : CdcSerialPort) (claimedComm : ℕ) (failure : String)
    (rest : List CdcSerialPort)
  | selecting (port : CdcSerialPort) (claimedComm : Option ℕ)
  | lineCoding (port : CdcSerialPort)
  | controlLines (port : CdcSerialPort)
  | abandoning (claimedInterface : ℕ) (failure : String)

structure Attempt where
  device : ℕ
  attempts : List String
  stage : Stage

/-- What `disconnect` waits for. -/
inductive Closing
  | draining
  | releasingControl (control : ℕ)
  | releasingData
  | closing

structure Disconnect where
  device : Option ℕ
  port : Option CdcSerialPort
  stage : Closing
  reason : String

structure ReadLoop where
  device : ℕ
  port : CdcSerialPort

inductive DeviceOption
  | fixed (device : Option ℕ)
  | resolver
  deriving DecidableEq

structure WebUsbSerialTransport where
  deviceOption : DeviceOption
  portIndex : ℤ
  status : TransportStatus
  device : Option ℕ
  port : Option CdcSerialPort
  intentionalDisconnect : Bool
  connectPromise : Bool
  readLoopPromise : Option ℕ
  claimedControlInterface : Option ℕ
  attempt : Option Attempt
  disconnects : List Disconnect
  loops : List (Option ReadLoop)
  devices : ℕ → UsbDevice
  claims : List (ℕ × ℕ)
  delivered : List Bytes
  ended : Bool

inductive TransferResult
  | data (bytes : Bytes)
  | stall
  | failed (message : String)

/-- An operation settles with nothing, or with the message of its failure. -/
inductive Event
  | connect (resolved : Option ℕ)
  | attemptSettles (failure : Option String)
  | connectSettled
  | disconnect
  | disconnectSettles (place : ℕ) (failure : Option String)
  | transferSettles (loop : ℕ) (result : TransferResult)

namespace WebUsbSerialTransport

def new (deviceOption : DeviceOption) (portIndex : ℤ) (devices : ℕ → UsbDevice) :
    WebUsbSerialTransport where
  deviceOption := deviceOption
  portIndex := portIndex
  status := .idle
  device := match deviceOption with
    | .fixed device => device
    | .resolver => none
  port := none
  intentionalDisconnect := false
  connectPromise := false
  readLoopPromise := none
  claimedControlInterface := none
  attempt := none
  disconnects := []
  loops := []
  devices := devices
  claims := []
  delivered := []
  ended := false

def claim (s : WebUsbSerialTransport) (device interfaceNumber : ℕ) : WebUsbSerialTransport :=
  { s with claims := (device, interfaceNumber) :: s.claims }

def release (s : WebUsbSerialTransport) (device interfaceNumber : ℕ) : WebUsbSerialTransport :=
  { s with claims := s.claims.filter fun c => c ≠ (device, interfaceNumber) }

def modifyDevice (s : WebUsbSerialTransport) (device : ℕ) (f : UsbDevice → UsbDevice) :
    WebUsbSerialTransport :=
  { s with devices := Function.update s.devices device (f (s.devices device)) }

/-- `this.device` after it is given up. -/
def releasedDevice (s : WebUsbSerialTransport) : Option ℕ :=
  if s.deviceOption = .resolver then none else s.device

/-! ## `doConnect` -/

def wait (s : WebUsbSerialTransport) (a : Attempt) (stage : Stage) : WebUsbSerialTransport :=
  { s with attempt := some { a with stage := stage } }

def reject (s : WebUsbSerialTransport) (failure : String) : WebUsbSerialTransport :=
  { s with
    attempt := none
    device := s.releasedDevice
    port := none
    status := if s.intentionalDisconnect then s.status else .error (describeUsbError failure)
    ended := true }

def checkAborted (s : WebUsbSerialTransport) (a : Attempt) (port : CdcSerialPort) :
    WebUsbSerialTransport :=
  if s.intentionalDisconnect then
    s.wait a (.abandoning port.interfaceNumber "WebUSB connect aborted by disconnect.")
  else s.wait a (.lineCoding port)

def needsAlternate (s : WebUsbSerialTransport) (device : ℕ) (port : CdcSerialPort) : Bool :=
  port.alternateSetting ≠ 0 ∧ (s.devices device).selectsAlternates

def tryCandidates (s : WebUsbSerialTransport) (a : Attempt) :
    List CdcSerialPort → WebUsbSerialTransport
  | [] => s.reject ("Could not claim a serial interface on this device (" ++
      "; ".intercalate a.attempts ++ "). Something else already owns it: close other apps or " ++
      "browser tabs using the board, unplug and replug it, and try again. Some Android builds " ++
      "ship a driver that claims the port permanently — there is no way around that from a web " ++
      "page, so use the WebSocket bridge or the desktop app on those.")
  | candidate :: rest =>
    match candidate.controlInterfaceNumber with
    | some control => s.wait a (.claimingControl candidate control rest)
    | none => s.wait a (.claimingData candidate none rest)

def nextCandidate (s : WebUsbSerialTransport) (a : Attempt) (candidate : CdcSerialPort)
    (failure : String) (rest : List CdcSerialPort) : WebUsbSerialTransport :=
  s.tryCandidates
    { a with
      attempts := a.attempts ++
        ["interface " ++ toString candidate.interfaceNumber ++ ": " ++ failure] } rest

def findPort (s : WebUsbSerialTransport) (a : Attempt) (configuration : UsbConfiguration) :
    WebUsbSerialTransport :=
  match candidates (findCdcSerialPorts configuration) s.portIndex with
  | [] => s.reject ("No CDC serial interface on this USB device. Pick the flight controller, " ++
      "not a hub or adapter.")
  | candidate :: rest => s.tryCandidates a (candidate :: rest)

def configure (s : WebUsbSerialTransport) (a : Attempt) : WebUsbSerialTransport :=
  let device := s.devices a.device
  match device.configuration with
  | some configuration => s.findPort a configuration
  | none =>
    match device.configurations with
    | [] => s.reject "The USB device exposes no configuration."
    | configuration :: _ => s.wait a (.configuring configuration)

def choosePort (s : WebUsbSerialTransport) (a : Attempt) (port : CdcSerialPort)
    (claimedComm : Option ℕ) : WebUsbSerialTransport :=
  let chosen := { s with port := some port, claimedControlInterface := claimedComm }
  if s.needsAlternate a.device port then chosen.wait a (.selecting port claimedComm)
  else chosen.checkAborted a port

/-- The transport is connected; the read loop returns at once when a disconnect was asked for. -/
def succeed (s : WebUsbSerialTransport) (a : Attempt) (port : CdcSerialPort) :
    WebUsbSerialTransport :=
  { s with
    attempt := none
    status := .connected
    readLoopPromise := some s.loops.length
    loops := s.loops ++ [if s.intentionalDisconnect then none else some ⟨a.device, port⟩] }

def advance (s : WebUsbSerialTransport) (a : Attempt) (failure : Option String) :
    WebUsbSerialTransport :=
  match a.stage, failure with
  | .opening, none =>
    (s.modifyDevice a.device fun device => { device with opened := true }).configure a
  | .opening, some message => s.reject message
  | .configuring configuration, none =>
    (s.modifyDevice a.device fun device =>
      { device with configuration := some configuration }).findPort a configuration
  | .configuring _, some message => s.reject message
  | .claimingControl candidate control rest, none =>
    (s.claim a.device control).wait a (.claimingData candidate (some control) rest)
  | .claimingControl candidate _ rest, some _ => s.wait a (.claimingData candidate none rest)
  | .claimingData candidate claimedComm _, none =>
    (s.claim a.device candidate.interfaceNumber).choosePort a candidate claimedComm
  | .claimingData candidate none rest, some message => s.nextCandidate a candidate message rest
  | .claimingData candidate (some control) rest, some message =>
    s.wait a (.releasingControl candidate control message rest)
  | .releasingControl candidate control message rest, _ =>
    (s.release a.device control).nextCandidate a candidate message rest
  | .selecting port _, none => s.checkAborted a port
  | .selecting port _, some message => s.wait a (.abandoning port.interfaceNumber message)
  | .lineCoding port, _ => s.wait a (.controlLines port)
  | .controlLines port, _ => s.succeed a port
  | .abandoning interfaceNumber message, _ => (s.release a.device interfaceNumber).reject message

def start (s : WebUsbSerialTransport) (resolved : Option ℕ) : WebUsbSerialTransport :=
  let device := match s.deviceOption with
    | .fixed device => device
    | .resolver => resolved
  match device with
  | none =>
    { s with
      device := none
      status := .error "No USB device selected. Choose the flight controller first."
      connectPromise := true
      ended := true }
  | some d =>
    let begun :=
      { s with
        device := some d
        status := .connecting
        intentionalDisconnect := false
        connectPromise := true
        ended := false }
    if (s.devices d).opened then begun.configure ⟨d, [], .opening⟩
    else begun.wait ⟨d, [], .opening⟩ .opening

def connect (s : WebUsbSerialTransport) (resolved : Option ℕ) : WebUsbSerialTransport :=
  if s.connectPromise then s else s.start resolved

/-! ## `disconnect` -/

def park (s : WebUsbSerialTransport) (d : Disconnect) : WebUsbSerialTransport :=
  { s with disconnects := s.disconnects ++ [d] }

def resolve (s : WebUsbSerialTransport) (d : Disconnect) : WebUsbSerialTransport :=
  { s with
    port := none
    device := s.releasedDevice
    status := .disconnected (some d.reason)
    ended := true }

def releaseData (s : WebUsbSerialTransport) (d : Disconnect) : WebUsbSerialTransport :=
  if d.device.isSome ∧ d.port.isSome then s.park { d with stage := .releasingData } else s.resolve d

def releaseControl (s : WebUsbSerialTransport) (d : Disconnect) : WebUsbSerialTransport :=
  match s.claimedControlInterface with
  | some control =>
    if d.device.isSome then s.park { d with stage := .releasingControl control }
    else s.releaseData d
  | none => s.releaseData d

def disconnect (s : WebUsbSerialTransport) : WebUsbSerialTransport :=
  let asked := { s with intentionalDisconnect := true }
  let d : Disconnect := ⟨s.device, s.port, .draining, "USB serial link closed."⟩
  if s.readLoopPromise.isSome then asked.park d else asked.releaseControl d

/-- What the call does when what it waits for has settled; the read loop may be given up instead. -/
def advanceDisconnect (s : WebUsbSerialTransport) (d : Disconnect) (failure : Option String) :
    WebUsbSerialTransport :=
  match d.stage with
  | .draining => { s with readLoopPromise := none }.releaseControl d
  | .releasingControl control =>
    { d.device.elim s fun device => s.release device control with
      claimedControlInterface := none }.releaseData d
  | .releasingData =>
    let released := d.device.elim s fun device => d.port.elim s fun port =>
      s.release device port.interfaceNumber
    released.park
      { d with
        stage := .closing
        reason := failure.elim d.reason fun message =>
          "Releasing the USB interface failed: " ++ describeUsbError message }
  | .closing =>
    match failure with
    | none =>
      (d.device.elim s fun device =>
        { s with claims := s.claims.filter fun c => c.1 ≠ device }.modifyDevice device
          fun it => { it with opened := false }).resolve d
    | some message =>
      s.resolve { d with reason := "Closing the USB device failed: " ++ describeUsbError message }

/-! ## `readLoop` -/

def readFails (s : WebUsbSerialTransport) (loop : ℕ) (message : String) : WebUsbSerialTransport :=
  { s with
    status := .disconnected (some (describeUsbError message))
    loops := s.loops.set loop none }

def advanceLoop (s : WebUsbSerialTransport) (loop : ℕ) (result : TransferResult) :
    WebUsbSerialTransport :=
  if s.intentionalDisconnect then { s with loops := s.loops.set loop none }
  else
    match result with
    | .data bytes => if bytes = [] then s else { s with delivered := s.delivered ++ [bytes] }
    | .stall => s.readFails loop "USB endpoint stalled."
    | .failed message => s.readFails loop message

def step (s : WebUsbSerialTransport) : Event → Option WebUsbSerialTransport
  | .connect resolved => some (s.connect resolved)
  | .attemptSettles failure => s.attempt.map fun a => s.advance a failure
  | .connectSettled =>
    if s.connectPromise ∧ s.attempt.isNone then some { s with connectPromise := false } else none
  | .disconnect => some s.disconnect
  | .disconnectSettles place failure =>
    s.disconnects[place]?.map fun d =>
      { s with disconnects := s.disconnects.eraseIdx place }.advanceDisconnect d failure
  | .transferSettles loop result =>
    (s.loops[loop]?).join.map fun _ => s.advanceLoop loop result

end WebUsbSerialTransport

end ArduConfigurator.Transport.WebUsb
