import HostBridge.Text.Blank

namespace HostBridge

inductive Policy
  | fatal
  | inert
  deriving DecidableEq

def defaultRegistryKey : String := "github.com/luar-rs/luar/operator-tables"

structure Config where
  unsupported : Policy := .fatal
  registryKey : String := defaultRegistryKey
  deriving DecidableEq

instance : Inhabited Config := ⟨{}⟩

def Config.isValid (c : Config) : Bool := !c.registryKey.toList.all isBlank

end HostBridge
