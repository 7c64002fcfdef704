import CodeChunks.Chunk
import CodeChunks.Syntax.Node

namespace CodeChunks.Extraction

open Syntax

/-- Type and name of a chunk; `inner` is the definition it is named after, when the root wraps
one. -/
structure Described where
  type : ChunkType
  name : Option String
  inner : Option Node

def Described.target (d : Described) (root : Node) : Node := d.inner.getD root

def Described.wrap (d : Described) (n : Node) : Described := { d with inner := some (d.target n) }

def isIdentifier (n : Node) : Bool :=
  n.kind == "identifier" || n.kind == "type_identifier" || n.kind == "property_identifier"

def definitionName (n : Node) (source : String) : Option String :=
  match n.field? "name" with
  | some m => Text.trimmed? (m.text source)
  | none => (n.children.find? isIdentifier).bind fun m => Text.trimmed? (m.text source)

def fieldName (n : Node) (source : String) : Option String :=
  match (n.field? "property").or (n.field? "name") with
  | some m => Text.trimmed? (m.text source)
  | none =>
    ((n.field? "declarator").bind (·.field? "name")).bind fun m => Text.trimmed? (m.text source)

def isFunctionLiteral (n : Node) : Bool :=
  n.kind == "arrow_function" || n.kind == "function_expression" || n.kind == "function" ||
    n.kind == "generator_function"

def describeDeclarator (n : Node) (source : String) : Described :=
  match n.firstNamedOfKind? "variable_declarator" with
  | none => ⟨.variable, none, none⟩
  | some declarator =>
    let name := ((declarator.field? "name").filter (·.kind == "identifier")).map (·.text source)
    match (declarator.field? "value").filter isFunctionLiteral with
    | some value => ⟨.functionExpression, name, some value⟩
    | none => ⟨.variable, name, none⟩

def isAssignable (n : Node) : Bool := n.kind == "identifier" || n.kind == "attribute"

def describeExpression (n : Node) (source : String) : Described :=
  match n.firstNamed?.filter (·.kind == "assignment") with
  | some assignment =>
    ⟨.variable, ((assignment.field? "left").filter isAssignable).map (·.text source), none⟩
  | none => ⟨.expression, none, none⟩

def describe (l : Language) (source : String) (n : Node) : Described :=
  match l.classify n.kind with
  | none => ⟨.expression, definitionName n source, none⟩
  | some kind =>
    match kind.nameRule with
    | .nameField => ⟨kind.chunkType, definitionName n source, none⟩
    | .declarator => describeDeclarator n source
    | .field => ⟨.field, fieldName n source, none⟩
    | .statement => ⟨kind.chunkType, some kind.chunkType.name, none⟩
    | .expression => describeExpression n source
    | .export =>
      match _h : n.field? "declaration" with
      | none => ⟨.export, some ChunkType.export.name, none⟩
      | some declaration =>
        let d := describe l source declaration
        if d.name.isSome then { d.wrap declaration with type := .export }
        else ⟨.export, some ChunkType.export.name, none⟩
    | .decorated =>
      match _h : n.field? "definition" with
      | none => ⟨.function, none, none⟩
      | some definition => (describe l source definition).wrap definition
termination_by n.size
decreasing_by all_goals exact Node.size_lt_of_field? _h

end CodeChunks.Extraction
