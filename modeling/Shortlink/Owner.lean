import Shortlink.Error
import Shortlink.Uuid
/-!
# Owners

An owner is known by a UUID that an identity provider has issued; here it is only compared.
-/
namespace Shortlink

structure OwnerId where
  uuid : Uuid
deriving DecidableEq

namespace OwnerId

instance : ToString OwnerId := ⟨fun owner => owner.uuid.toString⟩

def parse (text : String) : Except InputError OwnerId :=
  match Uuid.parse text with
  | .ok uuid => .ok ⟨uuid⟩
  | .error fault => .error (.ownerId s!"'{text}': {fault.message}")

end OwnerId
end Shortlink
