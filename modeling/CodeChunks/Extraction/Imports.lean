import CodeChunks.Event
import CodeChunks.Syntax.Node
import CodeChunks.Text.Quoted

namespace CodeChunks.Extraction

open Syntax

def defaultSpecifier (source : String) (n : Node) : Specifier := ⟨.default, n.text source, none⟩

def namespaceSpecifier (source : String) (n : Node) : Specifier := ⟨.namespace, n.text source, none⟩

def namedSpecifier? (source : String) (n : Node) : Option Specifier :=
  if n.kind = "import_specifier" then
    (n.field? "name").map fun name =>
      let imported := Text.unquote (name.text source)
      ⟨.named, ((n.field? "alias").map (·.text source)).getD imported, some imported⟩
  else none

def clauseSpecifiers (source : String) (n : Node) : List Specifier :=
  match n.kind with
  | "identifier" => [defaultSpecifier source n]
  | "namespace_import" =>
    ((n.firstNamedOfKind? "identifier").map (namespaceSpecifier source)).toList
  | "named_imports" => n.namedChildren.filterMap (namedSpecifier? source)
  | _ => []

def statementSpecifiers (source : String) (n : Node) : List Specifier :=
  match n.kind with
  | "import_clause" => n.namedChildren.flatMap (clauseSpecifiers source)
  | "import_require_clause" =>
    ((n.firstNamedOfKind? "identifier").map (defaultSpecifier source)).toList
  | _ => []

def moduleNode? (statement : Node) : Option Node :=
  (statement.field? "source").or
    ((statement.namedChildren.filter (·.kind == "import_require_clause")).findSome?
      (·.field? "source"))

def importOf? (source : String) (statement : Node) : Option Import :=
  (moduleNode? statement).map fun m =>
    ⟨Text.unquote (m.text source), statement.namedChildren.flatMap (statementSpecifiers source)⟩

def importStatements (root : Node) : List Node :=
  root.namedChildren.filter (·.kind == "import_statement")

def imports (l : Language) (source : String) (root : Node) : List Import :=
  if l.hasImports then (importStatements root).filterMap (importOf? source) else []

def importEvents (l : Language) (source : String) (root : Node) : List Event :=
  if l.hasImports then
    ((importStatements root).filter (importOf? source · |>.isNone)).map
      fun n => .importWithoutSource n.line
  else []

end CodeChunks.Extraction
