import Mathlib.Tactic.Common

/-! # The status of a transport

`types.ts` of the transports. -/
namespace ArduConfigurator.Transport
set_option autoImplicit false

inductive TransportStatus
  | idle
  | connecting
  | connected
  | disconnected (reason : Option String)
  | error (message : String)
  deriving DecidableEq

end ArduConfigurator.Transport
