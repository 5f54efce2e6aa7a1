import HostBridge.Function.Native
import HostBridge.Value.Text

namespace HostBridge

namespace Pointer

def modifyFields (p : Pointer) (wanted : String)
    (change : StructTy → List Value → Except HostError (List Value)) : HostM Unit := do
  match ← (p.load (← get) : Except HostError Value) with
  | .struct t vs => p.write (.struct t (← (change t vs : Except HostError _)))
  | v => HostM.fail (.typeMismatch wanted v.typeText)

end Pointer

namespace NativeFunction

def identity (t : Native) : NativeFunction := ⟨[t], [t], fun x => return .ok x⟩

def greet : NativeFunction where
  params := [.string, .uint .w32]
  results := [.string]
  run := fun (name, age, _) =>
    let name : String := name
    return .ok ("Hello " ++ name ++ ", age " ++ toString age.1, ())

def double : NativeFunction where
  params := [.int .w64]
  results := [.int .w64]
  run := fun (n, _) => return .ok (⟨_, IntWidth.w64.signed_wrapSigned (2 * n.1)⟩, ())

def split : NativeFunction where
  params := [.string]
  results := [.string, .string, .int .w64]
  run := fun (s, _) =>
    let s : String := s
    return .ok (String.ofList (s.toList.take 1), String.ofList (s.toList.drop 1),
      ⟨_, IntWidth.w64.signed_wrapSigned s.utf8ByteSize⟩, ())

def fail : NativeFunction where
  params := [.string]
  results := [.string]
  run := fun (name, _) =>
    let name : String := name
    return .error ("no such user " ++ name)

def check : NativeFunction where
  params := [.int .w64]
  results := [.int .w64, .bool]
  run := fun (n, _) =>
    if n.1 < 0 then return .error (HostError.indexOutOfRange 3 2).message
    else return .ok (n, n.1 % 2 == 0, ())

def noop : NativeFunction := ⟨[], [], fun _ => return .ok ()⟩

def pick : NativeFunction where
  params := [.bool, .int .w8, .single, .string]
  results := [.string, .int .w8, .single]
  run := fun (_, b, c, d, _) => return .ok (d, b, c, ())

def length : NativeFunction where
  params := [.list .any]
  results := [.uint .w64]
  run := fun (xs, _) =>
    let xs : List Value := xs
    return .ok (⟨_, IntWidth.w64.unsigned_wrapUnsigned xs.length⟩, ())

def greetPerson : NativeFunction where
  params := [.any]
  results := [.string]
  run := fun (v, _) => do
    let st ← get
    match (v : Value) with
    | .struct t vs =>
      let field name := ((t.get? vs name).getD .nil).text st
      return .ok ("Hello " ++ field "Name" ++ ", age " ++ field "Age", ())
    | v => return .error (HostError.typeMismatch "Person" v.typeText).message

def renamePerson : NativeFunction where
  params := [.any, .string]
  results := []
  run := fun (v, name, _) st =>
    match (v : Value) with
    | .ptr p =>
      match p.modifyFields "Person" (fun t vs => t.set vs "Name" (.string name)) st with
      | .ok _ st => .ok (.ok ()) st
      | .error (.error e) st => .ok (.error e.message) st
      | .error stop st => .error stop st
    | v => .ok (.error (HostError.typeMismatch "*Person" v.typeText).message) st

end NativeFunction

namespace Body

def arguments : Body := fun args => return args

def nothing : Body := fun _ => return []

def constant (vs : List Value) : Body := fun _ => return vs

def describe : Body := fun args => do
  let st ← get
  return args.map fun v => .string (v.typeText ++ "=" ++ v.text st)

def spread : Body := fun args => do
  match args.getLast? with
  | some (.slice s) => return s.toList (← get)
  | last => HostM.fail (.typeMismatch "slice" (last.getD .nil).typeText)

def setField (name : String) : Body
  | .ptr p :: v :: _ => do
    p.modifyFields "struct" fun t vs => t.set vs name v
    return []
  | _ => HostM.fail (.call "set_field wants a pointer and a value")

def getField (name : String) : Body := fun args => do
  match args.head? with
  | some (.struct t vs) => return (t.get? vs name).toList
  | some (.ptr p) =>
    match ← (p.load (← get) : Except HostError Value) with
    | .struct t vs => return (t.get? vs name).toList
    | v => HostM.fail (.typeMismatch "struct" v.typeText)
  | _ => HostM.fail (.call "get_field wants a struct")

def failing (e : HostError) : Body := fun _ => HostM.fail e

def panicking (text : Option String) : Body := fun _ => throw (.panic text)

end Body

end HostBridge
