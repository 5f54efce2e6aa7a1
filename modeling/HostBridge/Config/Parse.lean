import HostBridge.Config.Basic
import HostBridge.Toml.Document

namespace HostBridge

inductive ConfigError
  | parse
  | validation (reason : String)
  deriving DecidableEq

def ConfigError.message? : ConfigError → Option String
  | .parse => none
  | .validation reason => some ("Invalid bridge config: " ++ reason)

def Policy.named? : String → Option Policy
  | "fatal" => some .fatal
  | "inert" => some .inert
  | _ => none

/-- A policy is a text, or a table whose one key names it and has nothing under it. -/
def Policy.ofToml? : Toml → Option Policy
  | .string s => named? s
  | .table _ [(name, .array [])] => named? name
  | .table _ [(name, .table _ [])] => named? name
  | _ => none

namespace Config

def ofEntries? (es : Toml.Entries) : Option Config := do
  let unsupported ← match es.lookup "unsupported" with
    | none => some .fatal
    | some v => Policy.ofToml? v
  let registryKey ← match es.lookup "registry_key" with
    | none => some defaultRegistryKey
    | some (.string s) => some s
    | some _ => none
  return { unsupported, registryKey }

def validate (c : Config) : Except ConfigError Unit :=
  if c.isValid then .ok () else .error (.validation "registry_key cannot be empty")

def parse (s : String) : Except ConfigError Config := do
  match (Toml.parse s).bind ofEntries? with
  | none => throw .parse
  | some c =>
    c.validate
    return c

end Config

end HostBridge
