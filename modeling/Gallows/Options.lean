import Gallows.Settings.Basic

/-!
What a client needs to know to connect.
-/
namespace Gallows

/-- What a client needs to know to connect. All times are in milliseconds. -/
structure Options where
  address : String
  gamePort : UInt16
  notificationPort : UInt16
  connectTimeout : Nat
  readTimeout : Nat
  requestTimeout : Nat
  pollInterval : Nat
  subscribe : Bool
deriving DecidableEq, Repr

/-- The options that settings ask for. -/
def Settings.Server.options (s : Settings.Server) : Options where
  address := s.address
  gamePort := s.gamePort
  notificationPort := s.notificationPort
  connectTimeout := s.connectTimeout.toNat * 1000
  readTimeout := s.readTimeout.toNat
  requestTimeout := s.requestTimeout.toNat * 1000
  pollInterval := s.pollInterval.toNat
  subscribe := s.subscribe

namespace Options

/-- The options for an address, with default ports and times. -/
def forAddress (address : String) : Options := Settings.Server.options { address }

end Options
end Gallows
