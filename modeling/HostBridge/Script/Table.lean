import HostBridge.Bridge.Error

namespace HostBridge

namespace Table

def lookup (key : Script) (entries : List (Script × Script)) : Script :=
  ((entries.find? (·.1.rawSame key)).map (·.2)).getD .nil

def update (key value : Script) (entries : List (Script × Script)) : List (Script × Script) :=
  match entries.findIdx? (·.1.rawSame key), value.isNil with
  | some i, true => entries.eraseIdx i
  | some i, false => entries.modify i fun (k, _) => (k, value)
  | none, true => entries
  | none, false => entries ++ [(key, value)]

/-- Items under the keys from one on; a nil item is an entry too. -/
def sequence (items : List Script) : List (Script × Script) :=
  items.mapIdx fun i v => (.number (.ofInt (i + 1 : Nat)), v)

def borderFrom (entries : List (Script × Script)) (n : Nat) : Nat → Nat
  | 0 => n
  | fuel + 1 =>
    if (lookup (.number (.ofInt (n + 1 : Nat))) entries).isNil then n
    else borderFrom entries (n + 1) fuel

def border (entries : List (Script × Script)) : Nat := borderFrom entries 0 0xffffffffffffffff

def entries (st : Store) (id : Nat) : List (Script × Script) := (st.tables.get? id).getD []

def get (st : Store) (id : Nat) (key : Script) : Script := lookup key (entries st id)

def set (id : Nat) (key value : Script) : BridgeM Unit :=
  if key.isNil then BridgeM.fail (.typeMismatch "table key" "nil")
  else modify fun st => { st with tables := st.tables.set id (update key value (entries st id)) }

def size (st : Store) (id : Nat) : Nat := border (entries st id)

def isEmpty (st : Store) (id : Nat) : Bool := (entries st id).isEmpty

end Table

end HostBridge
