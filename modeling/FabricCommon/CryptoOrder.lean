import FabricCommon.CryptoFiles

namespace FabricCommon

open CryptoPath CaCryptoGen

/-- The files a node needs. -/
def CryptoPath.required (p : CryptoPath) : List Path :=
  [p.signcerts, privateKey, p.cacerts, key, cert, caCert, p.tlscacerts]

section

variable {p : CryptoPath} {s : NodeDir}

end

end FabricCommon
