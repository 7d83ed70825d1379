import Mathlib.Algebra.GroupWithZero.Nat

/-!
# Errors and metadata

The values that cross the safe API: `error.rs` and the part of `types.rs` that
the request machinery copies out of Cronet and hands on.
-/

namespace TokioCronet

/-- `Cronet_RESULT` as `ResultCode::from_raw` reads it; success is no code. -/
inductive ResultCode where
  | illegalArgument
  | storagePathMustExist
  | invalidPin
  | invalidHostname
  | invalidHttpMethod
  | invalidHttpHeader
  | illegalState
  | storagePathInUse
  | shutdownFromNetworkThread
  | engineAlreadyStarted
  | requestAlreadyStarted
  | requestNotInitialized
  | requestAlreadyInitialized
  | requestNotStarted
  | unexpectedRedirect
  | unexpectedRead
  | readFailed
  | nullPointer
  | nullHostname
  | nullPins
  | nullExpirationDate
  | nullEngine
  | nullUrl
  | nullCallback
  | nullExecutor
  | nullMethod
  | nullHeaderName
  | nullHeaderValue
  | nullParams
  | nullFinishedListenerExecutor
  | unknown (raw : Int)
  deriving DecidableEq

/-- A header as `Header::new` stores it. -/
structure Header where
  name : String
  value : String
  deriving DecidableEq

/-- Response metadata, copied once and handed on unread. -/
structure ResponseInfo where
  url : String
  urlChain : List String
  statusCode : Int
  statusText : String
  headers : List Header
  wasCached : Bool
  negotiatedProtocol : String
  proxyServer : String
  receivedByteCount : Int
  deriving DecidableEq

/-- `Cronet_Error_ERROR_CODE`. -/
inductive NetworkErrorCode where
  | callback
  | hostnameNotResolved
  | internetDisconnected
  | networkChanged
  | timedOut
  | connectionClosed
  | connectionTimedOut
  | connectionRefused
  | connectionReset
  | addressUnreachable
  | quicProtocolFailed
  | other
  | unknown (raw : Nat)
  deriving DecidableEq

/-- The failure `copy_network_error` reads from a callback. -/
structure NetworkError where
  code : NetworkErrorCode
  message : String
  internalErrorCode : Int
  immediatelyRetryable : Bool
  quicDetailedErrorCode : Int
  deriving DecidableEq

/-- `tokio_cronet::Error`, restricted to what the modelled functions produce. -/
inductive Error where
  | cronet (code : ResultCode)
  | network (error : NetworkError)
  | canceled
  | redirect (location : String) (response : ResponseInfo)
  | invalidConfiguration (message : String)
  | responseTooLarge (limit : Nat)
  | invalidReadSize (reported capacity : Nat)
  | allocationFailed (kind : String)
  | callbackChannelClosed
  | engineShutdown
  | tokioTask (message : String)
  | upload (message : String)
  | bidirectionalApi (operation : String) (code : Int)
  | bidirectionalStream (netError : Int)
  | webSocket (message : String) (netError : Int)
  | invalidString (field : String)
  deriving DecidableEq

instance decidableEqExcept {ε α : Type} [DecidableEq ε] [DecidableEq α] :
    DecidableEq (Except ε α)
  | .error e, .error e' => decidable_of_iff (e = e') ⟨congrArg Except.error, Except.error.inj⟩
  | .ok a, .ok b => decidable_of_iff (a = b) ⟨congrArg Except.ok, Except.ok.inj⟩
  | .error _, .ok _ => .isFalse nofun
  | .ok _, .error _ => .isFalse nofun

/-- `tokio_cronet::Result`. -/
abbrev Result (α : Type) := Except Error α

/-- `error::check`: a result code is an error unless it is success. -/
def check (code : Option ResultCode) : Result Unit :=
  match code with
  | none => .ok ()
  | some code => .error (.cronet code)

end TokioCronet
