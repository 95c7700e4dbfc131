/-
# Gateway failures

The failure a converter, parser or continuation step throws. The kinds, sources
and phases are those the modelled code constructs; the attached `cause` of the
source is diagnostic only and is left out.
-/

import Mathlib.Data.List.Basic

namespace GhcGateway

inductive GatewayFailureKind
  | invalidRequest
  | upstreamStreamError
  | upstreamStreamTruncated
  | invalidUpstreamResponse
  | unsupportedUpstreamOutput
  | invalidToolArguments
  | carrierUnavailable
  | queueFull
  | queueTimeout
  | aborted
  | upstreamTimeout
  | internal
  deriving DecidableEq

inductive GatewayFailureSource
  | parser
  | converter
  | continuation
  | request
  | gateway
  deriving DecidableEq

inductive GatewayFailurePhase
  | stream
  | parse
  | convert
  deriving DecidableEq

/-- `GatewayFailureError`: where a failure has no source or phase the caller
fills them in later. -/
structure GatewayFailure where
  kind : GatewayFailureKind
  source : Option GatewayFailureSource
  phase : Option GatewayFailurePhase
  deriving DecidableEq

end GhcGateway
