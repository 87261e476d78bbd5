import Kcf.Network.Discovery.Node

/-!
# Compatibility of a live route

The check that both data planes make against a snapshot of the peer table before
they use an endpoint of a peer.
-/

namespace Kcf.Network.Discovery

/-- `CheckRouteCompatibility`. -/
def checkRouteCompatibility (config : Config) (peer : PeerInfo) (here : NetworkEndpointMetadata)
    (remote : RemoteEndpointIdentity) (target : TargetScope) : CompatibilityResult :=
  if peer.state ≠ .online then { reason := .peerLost }
  else
    let result := checkPeerCompatibility config.profile peer.profile config.compatibilityPolicy
    if ¬result.Compatible then result
    else if ¬peer.metadataReady then { result with reason := .metadataUnavailable }
    else if here.identity.runtime.host ≠ config.host ∨
        here.identity.runtime.bootId ≠ config.bootId ∨ remote.runtime.host ≠ peer.host ∨
        remote.runtime.bootId ≠ peer.bootId then
      { result with reason := .hostMismatch }
    else
      match peer.endpoints.find? fun endpoint => endpoint.identity = remote with
      | some endpoint =>
        checkEndpointCompatibility config.profile peer.profile here endpoint
          config.compatibilityPolicy target
      | none => { result with reason := .unknownEndpoint }

end Kcf.Network.Discovery
