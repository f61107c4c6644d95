import QuoteStreamer.Text

/-!
# Error types

The error enumerations of `errors.rs` that the modelled functions return, with the texts their
`Display` implementations produce where one error is wrapped in another.
-/

namespace QuoteStreamer

/-- Errors of a streaming client. -/
inductive ClientError where
  | callbackFailed (text : Str)
  | initializationError (text : Str)
  deriving DecidableEq, Repr

/-- `Display` for `ClientError`. -/
def ClientError.toText : ClientError → Str
  | .callbackFailed text => "Callback returned an error: ".toList ++ text
  | .initializationError text => "Failed to initialize client loop: ".toList ++ text

/-- Errors of the `QuoteServer`. -/
inductive QuoteServerError where
  | invalidConfig (text : Str)
  | initializationError (text : Str)
  | updateQuoteError (text : Str)
  | clientError (text : Str)
  deriving DecidableEq, Repr

/-- `From<ClientError> for QuoteServerError`. -/
def QuoteServerError.ofClientError (error : ClientError) : QuoteServerError :=
  .clientError error.toText

/-- Errors of the TCP server. -/
inductive TcpServerError where
  | bindError (text : Str)
  | acceptError (text : Str)
  | clientIoError (text : Str)
  | invalidCommand (text : Str)
  | quoteServerError (error : QuoteServerError)
  deriving DecidableEq, Repr

/-- `Display` for `QuoteServerError`. -/
def QuoteServerError.toText : QuoteServerError → Str
  | .invalidConfig text => "Invalid Quote Server config: ".toList ++ text
  | .initializationError text => "Failed to initialize Quote Server: ".toList ++ text
  | .updateQuoteError text => "Failed to update quotes: ".toList ++ text
  | .clientError text => "Failed to add/remove client: ".toList ++ text

/-- The derived `Debug` for a variant with one field, whose own `Debug` text is given. -/
def debugTuple (variant : String) (field : Str) : Str :=
  variant.toList ++ ['('] ++ field ++ [')']

/-- `Debug` for `QuoteServerError`; `debug` is `Debug` for `str`, which quotes and escapes. -/
def QuoteServerError.toDebug (debug : Str → Str) : QuoteServerError → Str
  | .invalidConfig text => debugTuple "InvalidConfig" (debug text)
  | .initializationError text => debugTuple "InitializationError" (debug text)
  | .updateQuoteError text => debugTuple "UpdateQuoteError" (debug text)
  | .clientError text => debugTuple "ClientError" (debug text)

/-- `Debug` for `TcpServerError`. -/
def TcpServerError.toDebug (debug : Str → Str) : TcpServerError → Str
  | .bindError text => debugTuple "BindError" (debug text)
  | .acceptError text => debugTuple "AcceptError" (debug text)
  | .clientIoError text => debugTuple "ClientIoError" (debug text)
  | .invalidCommand text => debugTuple "InvalidCommand" (debug text)
  | .quoteServerError error => debugTuple "QuoteServerError" (error.toDebug debug)

/-- Errors of the binaries. -/
inductive CliError where
  | generalError (text : Str)
  deriving DecidableEq, Repr

/-- `From<QuoteServerError> for CliError`. -/
def CliError.ofQuoteServerError (error : QuoteServerError) : CliError :=
  .generalError error.toText

end QuoteStreamer
