import All4One.Membership.Certificates

open Foundation

namespace All4One.Membership

-- A certificate: whose it is, for which key, by which key it is signed, and until when it is valid.
structure Certificate (Key : Type) where
  subject   : List String
  publicKey : Key
  signer    : Key
  notAfter  : Int
  deriving DecidableEq

-- What texts in PEM are: a certificate, or the private half of a key.
structure Pki (Key : Type) where
  certificate : String → Option (Certificate Key)
  key         : String → Option Key
  -- The end of the default validity of `rcgen`.
  validity    : Int

namespace Pki

variable {Key : Type} (pki : Pki Key)

-- `generate_simple_self_signed` makes a key, and a certificate for it that is signed by that same key.
def SelfSigns (selfSigned : List String → Except String CertifiedKey) : Prop :=
  ∀ names made, selfSigned names = .ok made → ∃ key, pki.key made.keyPair = some key ∧
    pki.certificate made.cert = some ⟨names, key, key, pki.validity⟩

-- A file has the certificate of the key that is in another one.
def Certifies (crt key : Bytes) : Prop :=
  ∃ crtPem keyPem certificate, crt.toString? = some crtPem ∧ key.toString? = some keyPem ∧
    pki.certificate crtPem = some certificate ∧ pki.key keyPem = some certificate.publicKey

theorem SelfSigns.certifies {pki : Pki Key} {selfSigned : List String → Except String CertifiedKey}
    {names : List String} {made : CertifiedKey} (h : pki.SelfSigns selfSigned)
    (hm : selfSigned names = .ok made) :
    pki.Certifies (.ofString made.cert) (.ofString made.keyPair) := by
  obtain ⟨key, hk, hc⟩ := h names made hm
  exact ⟨_, _, _, Bytes.toString?_ofString _, Bytes.toString?_ofString _, hc, hk⟩

end Pki

end All4One.Membership
