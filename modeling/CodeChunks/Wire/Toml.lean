import CodeChunks.Toml.Document
import CodeChunks.Wire.Batch

namespace CodeChunks

namespace Toml

def momentMember : String := "$__toml_private_datetime"

mutual

def Item.toJson : Item → Json
  | .str s => .str s
  | .int n => if 0 ≤ n then .nat n.toNat else .number (toString n)
  | .float text => .number text
  | .bool b => .bool b
  | .moment text => .obj [(momentMember, .str text)]
  | .array items => .arr (itemsToJson items)
  | .table _ members => .obj (membersToJson members)
  | .tables elements => .arr (itemsToJson elements)

def itemsToJson : List Item → List Json
  | [] => []
  | i :: is => i.toJson :: itemsToJson is

def membersToJson : List (String × Item) → List (String × Json)
  | [] => []
  | (key, i) :: ms => (key, i.toJson) :: membersToJson ms

end

def atMost (count : Nat) : Json → Json
  | .arr items => .arr (items.take count)
  | j => j

end Toml

def Batch.Settings.ofToml? (text : String) : Option Batch.Settings := do
  let members ← Toml.parse? text
  Batch.Settings.ofJson? (.obj ((Toml.membersToJson members).map fun (key, j) =>
    (key, if key = "chunker" then Toml.atMost 4 j else j)))

end CodeChunks
