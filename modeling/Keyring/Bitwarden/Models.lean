/-
The part of the `/sync` response the provider reads.

Field names in the JSON, with their two spellings, belong to decoding, which is a module of
its own; a decoded response has exactly the fields below.
-/
import Keyring.Basic

namespace Keyring.Bitwarden

/-- Bitwarden cipher type identifier for SSH keys. -/
def cipherTypeSshKey : Int := 5

/-- Organization entry carrying the encrypted shared key. -/
structure BitwardenProfileOrganization where
  id : Option Uuid
  key : Option String
  deriving DecidableEq

/-- Profile subset used to import organization shared keys. -/
structure BitwardenProfile where
  organizations : Option (List BitwardenProfileOrganization)
  deriving DecidableEq

/-- SSH-key payload subset embedded inside a cipher. -/
structure BitwardenCipherSshKey where
  privateKey : Option String
  deriving DecidableEq

/-- Cipher subset needed for SSH-key discovery and decryption. -/
structure BitwardenCipher where
  id : Option Uuid
  organizationId : Option Uuid
  type : Option Int
  name : Option String
  deletedDate : Option String
  archivedDate : Option String
  key : Option String
  sshKey : Option BitwardenCipherSshKey
  deriving DecidableEq

def hasNonBlankValue (value : Option String) : Bool := value.any fun value => !isBlank value

namespace BitwardenCipher

def isSshKey (cipher : BitwardenCipher) : Bool := cipher.type == some cipherTypeSshKey

/-- Moved to the trash. -/
def isDeleted (cipher : BitwardenCipher) : Bool := hasNonBlankValue cipher.deletedDate

def isArchived (cipher : BitwardenCipher) : Bool := hasNonBlankValue cipher.archivedDate

end BitwardenCipher

/-- Top-level subset of the `/sync` response consumed by the provider. -/
structure BitwardenSyncResponse where
  profile : Option BitwardenProfile
  ciphers : Option (List BitwardenCipher)
  deriving DecidableEq

end Keyring.Bitwarden
